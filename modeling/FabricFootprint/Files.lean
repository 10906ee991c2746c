/-!
FabricFootprint.Files — files as a command sees them: by path, with the
ways that access can fail.

* `FileFailure` — why a file could not be read or written, in the operating system's words.
* `FileAccess` — reading and writing within a monad; the command line is written over it.
* `pathExtension?` — the extension of the last component of a path.
* `Folder` — a flat directory of named files, the pure instance of `FileAccess`. The
  directories above it are there too, but nothing in them can be read, and what is written
  to them is not followed.
-/

namespace FabricFootprint

/-! ## Failures -/

/-- Why a file could not be read or written. -/
inductive FileFailure where
  | notFound
  | isDirectory
  | notADirectory
  | nameTooLong
  /-- The path holds a zero character. -/
  | zeroInName
  /-- The content is not UTF-8. -/
  | invalidText
  /-- Any other failure, in the system's words. -/
  | other (words : String)
  deriving DecidableEq

def FileFailure.message : FileFailure → String
  | .notFound => "No such file or directory (os error 2)"
  | .isDirectory => "Is a directory (os error 21)"
  | .notADirectory => "Not a directory (os error 20)"
  | .nameTooLong => "File name too long (os error 36)"
  | .zeroInName => "file name contained an unexpected NUL byte"
  | .invalidText => "stream did not contain valid UTF-8"
  | .other words => words

/-- Reading and writing of files. -/
structure FileAccess (m : Type → Type) where
  read : String → m (Except FileFailure String)
  write : String → String → m (Except FileFailure Unit)

/-! ## Paths -/

/-- The components of a path; empty components and single dots name no place of their own. -/
def pathComponents (path : String) : List String :=
  (path.splitOn "/").filter fun part => !part.isEmpty && part != "."

/-- The part after the last dot, unless nothing stands before that dot. -/
def extensionOf? (name : String) : Option String :=
  let cs := name.toList.reverse
  let ext := cs.takeWhile (· != '.')
  match cs.dropWhile (· != '.') with
  | [] => none
  | _ :: stem =>
    if stem.isEmpty || name == ".." then none else some (String.ofList ext.reverse)

/-- The extension of the last component of a path. -/
def pathExtension? (path : String) : Option String :=
  (pathComponents path).getLast?.bind extensionOf?

/-! ## Folders -/

/-- A flat directory of named files. -/
structure Folder where
  files : List (String × ByteArray)

inductive Place where
  /-- The directory itself. -/
  | inside
  /-- A directory above it. -/
  | above
  /-- A name in the directory. -/
  | entry (name : String)
  /-- A name in a directory above. -/
  | outside (name : String)
  deriving DecidableEq

/-- The greatest number of bytes in a name. -/
def nameLimit : Nat := 255

/-- The greatest number of bytes in a path. -/
def pathLimit : Nat := 4095

namespace Folder

/-- The content of a name in the directory. -/
def content? (folder : Folder) (name : String) : Option ByteArray :=
  (folder.files.find? fun f => f.1 == name).map Prod.snd

/-- The content of the file at a place. -/
def fileAt (folder : Folder) : Place → Except FileFailure ByteArray
  | .inside | .above => .error .isDirectory
  | .entry name =>
    if nameLimit < name.utf8ByteSize then .error .nameTooLong
    else
      match folder.content? name with
      | some bytes => .ok bytes
      | none => .error .notFound
  | .outside name =>
    .error (if nameLimit < name.utf8ByteSize then .nameTooLong else .notFound)

/-- The place that a part of a path leads to. -/
def enter (folder : Folder) (place : Place) (part : String) : Except FileFailure Place :=
  match folder.fileAt place with
  | .ok _ => .error .notADirectory
  | .error .isDirectory =>
    if part = "." then .ok place
    else if part = ".." then .ok .above
    else .ok (if place = .inside then .entry part else .outside part)
  | .error failure => .error failure

/-- The place that a path leads to. What stands at its last name is not looked at. -/
def locate (folder : Folder) (path : String) : Except FileFailure Place :=
  if path.toList.contains '\x00' then .error .zeroInName
  else if path.isEmpty then .error .notFound
  else if pathLimit < path.utf8ByteSize then .error .nameTooLong
  else
    ((path.splitOn "/").filter fun part => !part.isEmpty).foldlM folder.enter
      (if path.startsWith "/" then .above else .inside)

def read (folder : Folder) (path : String) : Except FileFailure String :=
  match (folder.locate path).bind folder.fileAt with
  | .error failure => .error failure
  | .ok bytes =>
    if path.endsWith "/" then .error .notADirectory
    else
      match String.fromUTF8? bytes with
      | some text => .ok text
      | none => .error .invalidText

/-- The directory with a file written. A path that ends in a slash names a
directory, whatever is there. -/
def write (folder : Folder) (path text : String) : Except FileFailure Folder :=
  match folder.locate path with
  | .error failure => .error failure
  | .ok place =>
    if path.endsWith "/" then .error .isDirectory
    else
      match place, folder.fileAt place with
      | _, .error .isDirectory => .error .isDirectory
      | _, .error .nameTooLong => .error .nameTooLong
      | .entry name, _ =>
        .ok ⟨folder.files.filter (fun f => f.1 != name) ++ [(name, text.toUTF8)]⟩
      | _, _ => .ok folder

/-- File access that carries a directory along. -/
def access : FileAccess (StateM Folder) where
  read path := fun folder => (folder.read path, folder)
  write path text := fun folder =>
    match folder.write path text with
    | .ok folder' => (.ok (), folder')
    | .error failure => (.error failure, folder)

end Folder

end FabricFootprint
