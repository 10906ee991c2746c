/-!
FabricFootprint.Json.Literal — string literals of JSON documents.

* `Literal.scan` — the units of a literal up to its closing quote: characters as they stand,
  and the 16-bit units of `\u` escapes.
* `Literal.decode?` — the text that units denote. Two units of a surrogate pair
  make one character; a half of a pair that stands alone makes none, and then the
  literal denotes no text.
* `Literal.encode` — the literal of a text: quotes, backslashes and control characters are
  escaped, all else stands as it is.
-/

namespace FabricFootprint.Literal

inductive Piece where
  | char (c : Char)
  | unit (n : Nat)
  deriving DecidableEq

/-! ## Reading -/

def hexDigit? (c : Char) : Option Nat :=
  if '0' ≤ c ∧ c ≤ '9' then some (c.toNat - '0'.toNat)
  else if 'a' ≤ c ∧ c ≤ 'f' then some (c.toNat - 'a'.toNat + 10)
  else if 'A' ≤ c ∧ c ≤ 'F' then some (c.toNat - 'A'.toNat + 10)
  else none

/-- The 16-bit unit of four hexadecimal digits. -/
def hexUnit? (a b c d : Char) : Option Nat := do
  let a ← hexDigit? a
  let b ← hexDigit? b
  let c ← hexDigit? c
  let d ← hexDigit? d
  return ((a * 16 + b) * 16 + c) * 16 + d

def escaped? (c : Char) : Option Char :=
  if c = '"' ∨ c = '\\' ∨ c = '/' then some c
  else if c = 'b' then some '\x08'
  else if c = 'f' then some '\x0c'
  else if c = 'n' then some '\n'
  else if c = 'r' then some '\r'
  else if c = 't' then some '\t'
  else none

/-- The units of a literal whose opening quote has been read, and the characters after its
closing quote. Control characters do not stand in a literal. -/
def scan : List Char → Option (List Piece × List Char)
  | [] => none
  | c :: rest =>
    if c = '"' then some ([], rest)
    else if c = '\\' then
      match rest with
      | [] => none
      | e :: rest =>
        if e = 'u' then
          match rest with
          | a :: b :: c :: d :: rest =>
            match hexUnit? a b c d, scan rest with
            | some n, some (pieces, rest) => some (.unit n :: pieces, rest)
            | _, _ => none
          | _ => none
        else
          match escaped? e, scan rest with
          | some c, some (pieces, rest) => some (.char c :: pieces, rest)
          | _, _ => none
    else if c.toNat < 0x20 then none
    else
      match scan rest with
      | some (pieces, rest) => some (.char c :: pieces, rest)
      | none => none

/-- The characters that the units of a literal denote. -/
def decodeChars? : List Piece → Option (List Char)
  | [] => some []
  | .char c :: rest => (decodeChars? rest).map (c :: ·)
  | .unit n :: rest =>
    if 0xD800 ≤ n ∧ n < 0xDC00 then
      match rest with
      | .unit m :: rest =>
        if 0xDC00 ≤ m ∧ m < 0xE000 then
          (decodeChars? rest).map
            (Char.ofNat (0x10000 + (n - 0xD800) * 0x400 + (m - 0xDC00)) :: ·)
        else none
      | _ => none
    else if 0xDC00 ≤ n ∧ n < 0xE000 then none
    else (decodeChars? rest).map (Char.ofNat n :: ·)

def decode? (pieces : List Piece) : Option String := (decodeChars? pieces).map String.ofList

/-! ## Writing -/

/-- A character as it stands in a literal. -/
def encodeChar (c : Char) : List Char :=
  if c = '"' then ['\\', '"']
  else if c = '\\' then ['\\', '\\']
  else if c = '\x08' then ['\\', 'b']
  else if c = '\x0c' then ['\\', 'f']
  else if c = '\n' then ['\\', 'n']
  else if c = '\r' then ['\\', 'r']
  else if c = '\t' then ['\\', 't']
  else if c.toNat < 0x20 then
    ['\\', 'u', '0', '0', Nat.digitChar (c.toNat / 16), Nat.digitChar (c.toNat % 16)]
  else [c]

def encode (s : String) : List Char := '"' :: s.toList.flatMap encodeChar ++ ['"']

def broken : List Char := ['"', '\\', 'u', 'd', '8', '0', '0', '"']

end FabricFootprint.Literal
