import FabricFootprint.Binary64.Shortest

/-!
FabricFootprint.Decimal — reading numbers from decimal text, and writing integers.

* `readInteger` — a 64-bit integer: an optional sign and one or more ASCII digits. The digits
  are read from the left, so the first fault met is the one reported.
* `readFloat` — a binary floating-point number: an optional sign, then digits with an optional
  point and exponent (rounded once, exactly), or `inf`, `infinity`, `nan` in any case.
* `integerText`, `countText` — an integer and a natural number in decimal digits.
-/

namespace FabricFootprint.Decimal

/-! ## Digits -/

def digit? (c : Char) : Option Nat :=
  if c.isDigit then some (c.toNat - '0'.toNat) else none

/-- The number that a digit string denotes; characters that are no digits are skipped. -/
def digitsValue (cs : List Char) : Nat :=
  cs.foldl (fun n c => match digit? c with | some d => n * 10 + d | none => n) 0

def integerText (i : Int) : String := String.ofList (Numeral.signedDigits i)

def countText (n : Nat) : String := String.ofList (Nat.toDigits 10 n)

/-! ## Integers -/

/-- One past the greatest 64-bit integer, `2 ^ 63`; the least one is its negative. -/
def integerBound : Nat := 1 <<< 63

/-- One past the greatest 64-bit word, `2 ^ 64`. -/
def wordBound : Nat := 1 <<< 64

/-- Why a text is no 64-bit integer. -/
inductive IntegerFault where
  | empty
  | invalidDigit
  | tooLarge
  | tooSmall
  deriving DecidableEq

def IntegerFault.message : IntegerFault → String
  | .empty => "cannot parse integer from empty string"
  | .invalidDigit => "invalid digit found in string"
  | .tooLarge => "number too large to fit in target type"
  | .tooSmall => "number too small to fit in target type"

/-- Reads digits from the left onto `n`; the first character that is no digit, or the first
digit that takes the number past `limit`, ends the reading. -/
def readDigits (limit : Nat) (overflow : IntegerFault) :
    Nat → List Char → Except IntegerFault Nat
  | n, [] => .ok n
  | n, c :: cs =>
    match digit? c with
    | none => .error .invalidDigit
    | some d => if limit < n * 10 + d then .error overflow
      else readDigits limit overflow (n * 10 + d) cs

/-- The 64-bit integer that a text denotes. A sign needs a digit after it. -/
def readInteger (cs : List Char) : Except IntegerFault Int64 :=
  match cs with
  | [] => .error .empty
  | ['+'] => .error .invalidDigit
  | ['-'] => .error .invalidDigit
  | '-' :: rest =>
    (readDigits integerBound .tooSmall 0 rest).map fun n => Int64.ofInt (-(n : Int))
  | '+' :: rest => (readDigits (integerBound - 1) .tooLarge 0 rest).map fun n => Int64.ofInt n
  | cs => (readDigits (integerBound - 1) .tooLarge 0 cs).map fun n => Int64.ofInt n

/-! ## Floating-point numbers -/

/-- Why a text is no floating-point number. -/
inductive FloatFault where
  | empty
  | invalid
  deriving DecidableEq

def FloatFault.message : FloatFault → String
  | .empty => "cannot parse float from empty string"
  | .invalid => "invalid float literal"

/-- The number nearest to `± digits · 10 ^ scale`. A decimal whose leading digit stands
beyond the four-hundredth place is an infinity or a zero whatever its digits, so no
huge power is formed. -/
def ofDecimal (negative : Bool) (digits : Nat) (scale : Int) : Binary64 :=
  if digits = 0 then Binary64.zero negative
  else
    let point : Int := (Nat.toDigits 10 digits).length + scale
    if 400 < point then Binary64.infinity negative
    else if point < -400 then Binary64.zero negative
    else if scale < 0 then Binary64.nearest negative digits (Nat.pow 10 scale.natAbs)
    else Binary64.nearest negative (digits * Nat.pow 10 scale.natAbs) 1

/-- The exponent part after the digits: nothing, or `e` with an optional sign and digits. -/
def readExponent? : List Char → Option Int
  | [] => some 0
  | e :: rest =>
    if e = 'e' ∨ e = 'E' then
      let (negative, ds) := match rest with
        | '-' :: ds => (true, ds)
        | '+' :: ds => (false, ds)
        | ds => (false, ds)
      if ds.isEmpty || !ds.all Char.isDigit then none
      else some (if negative then -(digitsValue ds : Int) else digitsValue ds)
    else none

/-- An unsigned decimal number: digits on at least one side of an optional point, then
an optional exponent. -/
def readMagnitude? (negative : Bool) (cs : List Char) : Option Binary64 :=
  let whole := cs.takeWhile Char.isDigit
  let afterWhole := cs.dropWhile Char.isDigit
  let (fraction, tail) := match afterWhole with
    | '.' :: rest => (rest.takeWhile Char.isDigit, rest.dropWhile Char.isDigit)
    | rest => ([], rest)
  if whole.isEmpty && fraction.isEmpty then none
  else (readExponent? tail).map fun e =>
    ofDecimal negative (digitsValue (whole ++ fraction)) (e - fraction.length)

/-- The names of the values that have no digits, in any case of letters. -/
def readSpecial? (negative : Bool) (cs : List Char) : Option Binary64 :=
  let name := cs.map Char.toLower
  if name = "inf".toList ∨ name = "infinity".toList then some (Binary64.infinity negative)
  else if name = "nan".toList then some (Binary64.nan negative)
  else none

/-- The floating-point number that a text denotes. -/
def readFloat (cs : List Char) : Except FloatFault Binary64 :=
  match cs with
  | [] => .error .empty
  | cs =>
    let (negative, body) := match cs with
      | '-' :: rest => (true, rest)
      | '+' :: rest => (false, rest)
      | rest => (false, rest)
    match readMagnitude? negative body <|> readSpecial? negative body with
    | some x => .ok x
    | none => .error .invalid

end FabricFootprint.Decimal
