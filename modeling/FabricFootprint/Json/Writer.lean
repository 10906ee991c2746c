import FabricFootprint.Json.Reader

/-!
FabricFootprint.Json.Writer — the text of a JSON document.

* `Json.compact` — without any blank.
* `Json.pretty` — a line for each item and member, two blanks deeper than its parent, and one
  blank after the colon; an empty list or record stays on its line.
-/

namespace FabricFootprint.Json

def scalarChars : JsonScalar → List Char
  | .null => "null".toList
  | .bool b => (Value.boolText b).toList
  | .number n => n.chars
  | .text (some s) => Literal.encode s
  | .text none => Literal.broken

def keyChars (key : Option String) : List Char := scalarChars (.text key)

mutual

/-- The characters of a document without blanks. -/
def compactChars : Json → List Char
  | .scalar s => scalarChars s
  | .list items => '[' :: compactItems items ++ [']']
  | .record members => '\x7b' :: compactMembers members ++ ['\x7d']

/-- List items, separated by commas. -/
def compactItems : List Json → List Char
  | [] => []
  | [n] => compactChars n
  | n :: m :: rest => compactChars n ++ ',' :: compactItems (m :: rest)

/-- Record members, separated by commas. -/
def compactMembers : List (Option String × Json) → List Char
  | [] => []
  | [(k, n)] => keyChars k ++ ':' :: compactChars n
  | (k, n) :: m :: rest =>
    keyChars k ++ ':' :: compactChars n ++ ',' :: compactMembers (m :: rest)

end

def newLine (depth : Nat) : List Char := '\n' :: List.replicate (2 * depth) ' '

mutual

/-- The characters of a document at a depth, on several lines. -/
def prettyChars (depth : Nat) : Json → List Char
  | .scalar s => scalarChars s
  | .list [] => ['[', ']']
  | .list (n :: rest) => '[' :: prettyItems (depth + 1) (n :: rest) ++ newLine depth ++ [']']
  | .record [] => ['\x7b', '\x7d']
  | .record (m :: rest) =>
    '\x7b' :: prettyMembers (depth + 1) (m :: rest) ++ newLine depth ++ ['\x7d']

/-- List items, each on lines of its own. -/
def prettyItems (depth : Nat) : List Json → List Char
  | [] => []
  | [n] => newLine depth ++ prettyChars depth n
  | n :: m :: rest =>
    newLine depth ++ prettyChars depth n ++ ',' :: prettyItems depth (m :: rest)

/-- Record members, each on lines of its own. -/
def prettyMembers (depth : Nat) : List (Option String × Json) → List Char
  | [] => []
  | [(k, n)] => newLine depth ++ keyChars k ++ ':' :: ' ' :: prettyChars depth n
  | (k, n) :: m :: rest =>
    newLine depth ++ keyChars k ++ ':' :: ' ' :: prettyChars depth n ++
      ',' :: prettyMembers depth (m :: rest)

end

def compact (document : Json) : String := String.ofList (compactChars document)

def pretty (document : Json) : String := String.ofList (prettyChars 0 document)

end FabricFootprint.Json
