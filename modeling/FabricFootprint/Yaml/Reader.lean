import FabricFootprint.Yaml.Token

/-!
FabricFootprint.Yaml.Reader — the document tree of a YAML text.

A tree is read from tokens. A key may be any node, but only a scalar denotes a text: other
keys are kept as `none`. Where nothing is written, an empty plain scalar stands. A text holds
one document, which end markers may follow.

Each reader returns a part and the tokens after it. It takes `fuel`, which bounds the nesting
and the number of entries; `Yaml.ofTokens?` gives more than any list of tokens can use.
-/

namespace FabricFootprint.Yaml

/-- An empty plain scalar: what stands where nothing is written. -/
def void : Yaml := .scalar (.plain "")

def keyText : Yaml → Option String
  | .scalar (.plain s) | .scalar (.quoted s) => some s
  | _ => none

inductive Holder where
  | flow
  /-- A block sequence, or the document. -/
  | entry
  /-- A block mapping. A sequence in it may start at the column of its key, and then has no
  token for its start and its end. -/
  | member
  deriving DecidableEq

/-- Whether nothing is written where a node could stand: the next token
belongs to the holder. -/
def isOmitted (holder : Holder) : List Token → Bool
  | [] => false
  | t :: _ =>
    match holder with
    | .flow => t == .colon || t == .comma || t == .closeBracket || t == .closeBrace
    | .entry => t == .dash || t == .key || t == .colon || t == .blockEnd
    | .member => t == .key || t == .colon || t == .blockEnd

mutual

def readNode : Nat → Holder → List Token → Option (Yaml × List Token)
  | 0, _, _ => none
  | fuel + 1, holder, ts =>
    match ts with
    | .scalar s :: rest => some (.scalar s, rest)
    | .openBracket :: rest =>
      (readFlowItems fuel rest).map fun (items, ts) => (.list items, ts)
    | .openBrace :: rest => (readFlowMembers fuel rest).map fun (ms, ts) => (.record ms, ts)
    | .blockSequence :: rest =>
      if holder = .flow then none
      else (readItems fuel rest).map fun (items, ts) => (.list items, ts)
    | .blockMapping :: rest =>
      if holder = .flow then none
      else (readMembers fuel rest).map fun (ms, ts) => (.record ms, ts)
    | .dash :: _ =>
      if holder = .member then
        (readLooseItems fuel ts).map fun (items, ts) => (.list items, ts)
      else none
    | _ => none

/-- A node, or nothing. -/
def readContent : Nat → Holder → List Token → Option (Yaml × List Token)
  | 0, _, _ => none
  | fuel + 1, holder, ts =>
    if isOmitted holder ts then some (void, ts) else readNode fuel holder ts

/-- The value behind a key; without a colon there is none. -/
def readValue : Nat → Holder → List Token → Option (Yaml × List Token)
  | 0, _, _ => none
  | fuel + 1, holder, ts =>
    match ts with
    | .colon :: rest => readContent fuel holder rest
    | _ => some (void, ts)

def readItems : Nat → List Token → Option (List Yaml × List Token)
  | 0, _ => none
  | fuel + 1, ts =>
    match ts with
    | .blockEnd :: rest => some ([], rest)
    | .dash :: rest => do
      let (item, rest) ← readContent fuel .entry rest
      let (items, rest) ← readItems fuel rest
      return (item :: items, rest)
    | _ => none

/-- The entries of a sequence at the column of its key. -/
def readLooseItems : Nat → List Token → Option (List Yaml × List Token)
  | 0, _ => none
  | fuel + 1, ts =>
    match ts with
    | .dash :: rest => do
      let (item, rest) ← readContent fuel .entry rest
      let (items, rest) ← readLooseItems fuel rest
      return (item :: items, rest)
    | _ => some ([], ts)

def readMembers : Nat → List Token → Option (List (Option String × Yaml) × List Token)
  | 0, _ => none
  | fuel + 1, ts =>
    match ts with
    | .blockEnd :: rest => some ([], rest)
    | .key :: rest => do
      let (key, rest) ← readContent fuel .member rest
      let (value, rest) ← readValue fuel .member rest
      let (members, rest) ← readMembers fuel rest
      return ((keyText key, value) :: members, rest)
    | _ => none

def readFlowItems : Nat → List Token → Option (List Yaml × List Token)
  | 0, _ => none
  | fuel + 1, ts =>
    match ts with
    | .closeBracket :: rest => some ([], rest)
    | _ => do
      let (item, rest) ← readFlowItem fuel ts
      match rest with
      | .closeBracket :: rest => return ([item], rest)
      | .comma :: rest =>
        let (items, rest) ← readFlowItems fuel rest
        return (item :: items, rest)
      | _ => none

/-- An item of a flow sequence: a node, or a single key with its value. An explicit key
without content uses up the token behind it. -/
def readFlowItem : Nat → List Token → Option (Yaml × List Token)
  | 0, _ => none
  | fuel + 1, ts =>
    match ts with
    | .key :: .colon :: rest | .key :: .comma :: rest | .key :: .closeBracket :: rest => do
      let (value, rest) ← readValue fuel .flow rest
      return (.record [(keyText void, value)], rest)
    | .key :: rest => do
      let (key, rest) ← readNode fuel .flow rest
      let (value, rest) ← readValue fuel .flow rest
      return (.record [(keyText key, value)], rest)
    | _ => readNode fuel .flow ts

def readFlowMembers : Nat → List Token → Option (List (Option String × Yaml) × List Token)
  | 0, _ => none
  | fuel + 1, ts =>
    match ts with
    | .closeBrace :: rest => some ([], rest)
    | _ => do
      let (member, rest) ← readFlowMember fuel ts
      match rest with
      | .closeBrace :: rest => return ([member], rest)
      | .comma :: rest =>
        let (members, rest) ← readFlowMembers fuel rest
        return (member :: members, rest)
      | _ => none

/-- A member of a flow mapping: a key with its value, or a node that is a key without one. -/
def readFlowMember : Nat → List Token → Option ((Option String × Yaml) × List Token)
  | 0, _ => none
  | fuel + 1, ts =>
    match ts with
    | .key :: rest => do
      let (key, rest) ← readContent fuel .flow rest
      let (value, rest) ← readValue fuel .flow rest
      return ((keyText key, value), rest)
    | _ => (readNode fuel .flow ts).map fun (key, rest) => ((keyText key, void), rest)

end

/-- The document that a list of tokens holds. -/
def ofTokens? (ts : List Token) : Option Yaml :=
  let fuel := 4 * ts.length + 4
  let parsed : Option (Yaml × List Token) :=
    match ts with
    | [] => some (void, [])
    | .documentStart :: rest =>
      match rest with
      | [] | .documentEnd :: _ => some (void, rest)
      | _ => readNode fuel .entry rest
    | _ => readNode fuel .entry ts
  match parsed with
  | none => none
  | some (document, rest) => if rest.all (· == .documentEnd) then some document else none

def read (text : String) : Option Yaml := (Token.scan? text).bind ofTokens?

end FabricFootprint.Yaml
