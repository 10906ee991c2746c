import FabricFootprint.Json.Literal
import FabricFootprint.Json.Scalar

/-!
FabricFootprint.Json.Token — the lexemes of JSON documents.

A document is a sequence of brackets, separators and scalars with blanks between them.
`scanAll` splits a text into its lexemes, reading each as far as it goes; it fails where no
lexeme starts. Blanks are the space, the tab, the line feed and the carriage return.
-/

namespace FabricFootprint.Json

inductive Token where
  | openList
  | closeList
  | openRecord
  | closeRecord
  | comma
  | colon
  | scalar (s : JsonScalar)
  deriving DecidableEq

/-! ## Numerals -/

def digitsOf (cs : List Char) : List (Fin 10) :=
  cs.map fun c => Numeral.digitOf (c.toNat - 48)

/-- The whole part of a numeral: a zero alone, or digits that start with none. -/
def scanWhole : List Char → Option (Nat × List Char)
  | [] => none
  | '0' :: rest => if rest.head?.any Char.isDigit then none else some (0, rest)
  | cs =>
    let ds := cs.takeWhile Char.isDigit
    if ds.isEmpty then none else some (Decimal.digitsValue ds, cs.dropWhile Char.isDigit)

/-- The digits after a point, when there is a point. -/
def scanFraction : List Char → Option (List (Fin 10) × List Char)
  | '.' :: rest =>
    let ds := rest.takeWhile Char.isDigit
    if ds.isEmpty then none else some (digitsOf ds, rest.dropWhile Char.isDigit)
  | cs => some ([], cs)

/-- The exponent, when there is one. -/
def scanExponent : List Char → Option (Option Int × List Char)
  | [] => some (none, [])
  | c :: rest =>
    if c = 'e' ∨ c = 'E' then
      let (negative, body) := match rest with
        | '-' :: body => (true, body)
        | '+' :: body => (false, body)
        | body => (false, body)
      let ds := body.takeWhile Char.isDigit
      if ds.isEmpty then none
      else
        let e : Int := Decimal.digitsValue ds
        some (some (if negative then -e else e), body.dropWhile Char.isDigit)
    else some (none, c :: rest)

/-- A numeral at the start of a text. -/
def scanNumeral (cs : List Char) : Option (Numeral × List Char) := do
  let (negative, body) := match cs with
    | '-' :: body => (true, body)
    | body => (false, body)
  let (whole, rest) ← scanWhole body
  let (fraction, rest) ← scanFraction rest
  let (exponent, rest) ← scanExponent rest
  return (⟨negative, whole, fraction, exponent⟩, rest)

/-! ## Lexemes -/

/-- Whether a character may stand between lexemes. -/
def isGap (c : Char) : Bool := c == ' ' || c == '\t' || c == '\n' || c == '\r'

/-- The rest of a text after a fixed word. -/
def afterWord (word : List Char) (cs : List Char) : Option (List Char) :=
  if word.isPrefixOf cs then some (cs.drop word.length) else none

/-- The lexeme that starts at a character, and the rest of the text. -/
def scanToken (c : Char) (rest : List Char) : Option (Token × List Char) :=
  if c = '[' then some (.openList, rest)
  else if c = ']' then some (.closeList, rest)
  else if c = '\x7b' then some (.openRecord, rest)
  else if c = '\x7d' then some (.closeRecord, rest)
  else if c = ',' then some (.comma, rest)
  else if c = ':' then some (.colon, rest)
  else if c = '"' then
    (Literal.scan rest).map fun (pieces, rest) =>
      (.scalar (.text (Literal.decode? pieces)), rest)
  else if c = 'n' then
    (afterWord "ull".toList rest).map fun rest => (.scalar .null, rest)
  else if c = 't' then
    (afterWord "rue".toList rest).map fun rest => (.scalar (.bool true), rest)
  else if c = 'f' then
    (afterWord "alse".toList rest).map fun rest => (.scalar (.bool false), rest)
  else (scanNumeral (c :: rest)).map fun (n, rest) => (.scalar (.number n), rest)

/-- The lexemes of a text, in at most `fuel` steps; a step takes a blank or a lexeme. -/
def scanSteps : Nat → List Char → Option (List Token)
  | _, [] => some []
  | 0, _ => none
  | fuel + 1, c :: rest =>
    if isGap c then scanSteps fuel rest
    else
      match scanToken c rest with
      | none => none
      | some (token, rest) => (scanSteps fuel rest).map (token :: ·)

/-- The lexemes of a text. Every step takes at least one character, so the length of the
text is enough fuel. -/
def scanAll (cs : List Char) : Option (List Token) := scanSteps cs.length cs

end FabricFootprint.Json
