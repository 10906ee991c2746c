import FabricFootprint.Json.Token

/-!
FabricFootprint.Json.Reader — the document tree of a JSON text.

`Json.read` accepts exactly one document with blanks around it. Items and members are
separated by single commas, and a separator at the end of a list or record is refused.
-/

namespace FabricFootprint.Json

mutual

/-- A document at the start of the lexemes, and the lexemes after it. -/
def parseNode : Nat → List Token → Option (Json × List Token)
  | 0, _ => none
  | _ + 1, .scalar s :: rest => some (.scalar s, rest)
  | _ + 1, .openList :: .closeList :: rest => some (.list [], rest)
  | fuel + 1, .openList :: rest =>
    match parseItems fuel rest with
    | some (items, rest) => some (.list items, rest)
    | none => none
  | _ + 1, .openRecord :: .closeRecord :: rest => some (.record [], rest)
  | fuel + 1, .openRecord :: rest =>
    match parseMembers fuel rest with
    | some (members, rest) => some (.record members, rest)
    | none => none
  | _ + 1, _ => none

/-- The items of a list up to its closing bracket, at least one. -/
def parseItems : Nat → List Token → Option (List Json × List Token)
  | 0, _ => none
  | fuel + 1, tokens =>
    match parseNode fuel tokens with
    | some (item, .comma :: rest) =>
      match parseItems fuel rest with
      | some (items, rest) => some (item :: items, rest)
      | none => none
    | some (item, .closeList :: rest) => some ([item], rest)
    | _ => none

/-- The members of a record up to its closing bracket, at least one. -/
def parseMembers : Nat → List Token → Option (List (Option String × Json) × List Token)
  | 0, _ => none
  | fuel + 1, .scalar (.text key) :: .colon :: tokens =>
    match parseNode fuel tokens with
    | some (content, .comma :: rest) =>
      match parseMembers fuel rest with
      | some (members, rest) => some ((key, content) :: members, rest)
      | none => none
    | some (content, .closeRecord :: rest) => some ([(key, content)], rest)
    | _ => none
  | _ + 1, _ => none

end

/-- The document that a sequence of lexemes spells. Each call takes a lexeme or hands on to
one that does, so twice the number of lexemes is enough fuel. -/
def ofTokens? (tokens : List Token) : Option Json :=
  match parseNode (2 * tokens.length + 1) tokens with
  | some (document, []) => some document
  | _ => none

def read (text : String) : Option Json := (scanAll text.toList).bind ofTokens?

end FabricFootprint.Json
