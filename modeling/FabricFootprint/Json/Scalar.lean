import FabricFootprint.Document.Node

/-!
FabricFootprint.Json.Scalar — the scalars of JSON documents and what they stand for.

* `JsonScalar` — null, a truth value, a numeral as written, or a string literal. A literal
  whose escapes leave half of a surrogate pair alone is grammatical but denotes no text.
* `Numeral.value?` — the value of a numeral: an integer when it has no point and no
  exponent and fits 64 bits (`-0` does not: it is the negative zero), otherwise a
  floating-point number.
* `Numeral.float?` — the floating-point reading. It is approximate in the last place: the
  digits are gathered in a 64-bit significand, which is then multiplied or divided once by a
  power of ten. A magnitude beyond the greatest finite number has no value.
* `JsonScalar.ofDatum` — the scalar that a datum is written as;
  infinities and NaNs become null.
-/

namespace FabricFootprint

/-! ## Numerals -/

namespace Numeral

/-- Appends digits to a 64-bit significand as long as they fit; returns the rest as well. -/
def gather : Nat → List Nat → Nat × List Nat
  | n, [] => (n, [])
  | n, d :: ds =>
    if Decimal.wordBound ≤ n * 10 + d then (n, d :: ds) else gather (n * 10 + d) ds

def powerOfTen (k : Nat) : Binary64 := Binary64.nearest false (Nat.pow 10 k) 1

/-- `x · 10 ^ e`, rounded in every step: a single step within the powers up to `10 ^ 308`, and
divisions by `10 ^ 308` before it for smaller exponents. A 64-bit significand is zero after
two such divisions, so four rounds are enough. -/
def scale : Nat → Binary64 → Int → Option Binary64
  | 0, x, _ => some x
  | rounds + 1, x, e =>
    if e.natAbs ≤ 308 then
      if e < 0 then some (x.divMagnitude (powerOfTen e.natAbs))
      else
        let y := x.mulMagnitude (powerOfTen e.natAbs)
        if y.isInfinite then none else some y
    else if x.isZero then some x
    else if e < 0 then scale rounds (x.divMagnitude (powerOfTen 308)) (e + 308)
    else none

def wholeDigits (n : Numeral) : List Nat :=
  (Nat.toDigits 10 n.whole).map fun c => c.toNat - 48

/-- The significand and power of ten that the digits of a numeral are gathered into.
Digits of the whole part that do not fit raise the power; digits of the fraction that do
not fit are dropped. -/
def gathered (n : Numeral) : Nat × Int :=
  let (s, left) := gather 0 n.wholeDigits
  let (s', dropped) := gather s (n.fraction.map Fin.val)
  (s', (left.length : Int) - ((n.fraction.length : Int) - dropped.length))

/-- One past the greatest exponent that is told apart from larger ones, `2 ^ 31`. -/
def exponentBound : Nat := 1 <<< 31

def float? (n : Numeral) : Option Binary64 :=
  let (s, power) := n.gathered
  let magnitude? : Option Binary64 :=
    match n.exponent with
    | none => scale 4 (Binary64.ofInt s) power
    | some e =>
      if exponentBound ≤ e.natAbs then
        (if s ≠ 0 ∧ 0 < e then none else some (Binary64.zero false))
      else scale 4 (Binary64.ofInt s) (power + e)
  magnitude?.map fun x => if n.negative then x.neg else x

def value? (n : Numeral) : Option Value :=
  if n.isWhole then
    if n.negative then
      if n.whole ≠ 0 ∧ n.whole ≤ Decimal.integerBound then
        some (.int (Int64.ofInt (-(n.whole : Int))))
      else n.float?.map .float
    else if n.whole < Decimal.integerBound then some (.int (Int64.ofInt n.whole))
    else n.float?.map .float
  else n.float?.map .float

/-- The natural number of a numeral without sign, point and exponent. -/
def count? (n : Numeral) : Option Nat :=
  if n.isWhole && !n.negative then some n.whole else none

end Numeral

/-! ## Scalars -/

inductive JsonScalar where
  | null
  | bool (b : Bool)
  | number (n : Numeral)
  /-- A string literal; `none` when its escapes leave half of a surrogate pair alone. -/
  | text (t : Option String)
  deriving DecidableEq, Inhabited

abbrev Json := Node JsonScalar

namespace JsonScalar

def value? : JsonScalar → Option Value
  | .null => some .null
  | .bool b => some (.bool b)
  | .number n => n.value?
  | .text t => t.map .str

/-- The scalar that a value is written as. -/
def ofValue : Value → JsonScalar
  | .null => .null
  | .bool b => .bool b
  | .int i => .number (Numeral.ofInt i.toInt)
  | .float x =>
    if x.isFinite then .number (Binary64.Layout.document.ofFinite x) else .null
  | .str s => .text (some s)

/-- The scalar that a datum is written as. -/
def ofDatum : Datum → JsonScalar
  | .value v => ofValue v
  | .count n => .number (Numeral.ofInt n)

end JsonScalar

instance : Scalar JsonScalar where
  isNull
    | .null => true
    | _ => false
  isVoid _ := false
  bool?
    | .bool b => some b
    | _ => none
  text?
    | .text t => t
    | _ => none
  count?
    | .number n => n.count?
    | _ => none
  value? := JsonScalar.value?
  boxedNames := true
  positional := true

namespace Json

def ofData (tree : Node Datum) : Json := tree.map JsonScalar.ofDatum

end Json

end FabricFootprint
