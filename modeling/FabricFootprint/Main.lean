import FabricFootprint.CommandLine.Execute

/-!
FabricFootprint.Main — the program: runs a command line over the files of the system.
-/

namespace FabricFootprint

/-- The failure that a system error stands for. -/
def failureOf : IO.Error → FileFailure
  | .noFileOrDirectory .. => .notFound
  | .inappropriateType _ code _ => if code = 20 then .notADirectory else .isDirectory
  | .permissionDenied .. => .other "Permission denied (os error 13)"
  | .invalidArgument _ 36 _ => .nameTooLong
  | e => .other (toString e)

/-- Reading and writing of the system's files. -/
def systemFiles : FileAccess IO where
  read path := do
    try
      let bytes ← IO.FS.readBinFile path
      match String.fromUTF8? bytes with
      | some text => return .ok text
      | none => return .error .invalidText
    catch e => return .error (failureOf e)
  write path text := do
    try
      IO.FS.writeFile path text
      return .ok ()
    catch e => return .error (failureOf e)

end FabricFootprint

open FabricFootprint in
/-- Runs the command line that the program was started with. -/
def main (words : List String) : IO UInt32 := do
  let bytes ← IO.getRandomBytes 16
  let outcome ← CommandLine.execute systemFiles (RunId.ofBytes bytes.toList) words
  for line in outcome.errors do
    IO.eprintln line
  for line in outcome.output do
    IO.println line
  return UInt32.ofNat outcome.exit
