/-!
FabricFootprint.Binary64 — 64-bit binary floating-point numbers, held as their bit pattern.

A pattern is a sign bit, an 11-bit exponent field and a 52-bit fraction field. A finite
pattern denotes `± significand · 2 ^ exponent`; the exponent field 2047 is an infinity
(fraction zero) or a NaN. Two numbers are equal here exactly when their patterns are, so a NaN
equals itself and the two zeros differ. All arithmetic is on natural numbers: nothing below
depends on machine floats.

* `significand`, `exponent` — the two factors of a finite magnitude.
* `nearest` — the number nearest to a quotient of naturals, ties to the even significand.
* `mulMagnitude`, `divMagnitude` — the rounded product and quotient of two magnitudes.
* `whole?` — the integer a number denotes, when it denotes one.
-/

namespace FabricFootprint

/-- A binary floating-point number of 64 bits. -/
structure Binary64 where
  bits : UInt64
  deriving DecidableEq, Inhabited

namespace Binary64

/-! ## Fields -/

/-- The weight of the sign bit, one past the greatest magnitude pattern: `2 ^ 63`. -/
def signWeight : Nat := 1 <<< 63

/-- The weight of the last exponent bit, one past the greatest fraction: `2 ^ 52`. -/
def binade : Nat := 1 <<< 52

def negative (x : Binary64) : Bool := x.bits.toNat / signWeight == 1

def exponentField (x : Binary64) : Nat := x.bits.toNat / binade % 2048

def fraction (x : Binary64) : Nat := x.bits.toNat % binade

def isFinite (x : Binary64) : Bool := x.exponentField != 2047

def isNaN (x : Binary64) : Bool := x.exponentField == 2047 && x.fraction != 0

def isInfinite (x : Binary64) : Bool := x.exponentField == 2047 && x.fraction == 0

/-- The integral significand of a finite number: a normal number has the hidden bit. -/
def significand (x : Binary64) : Nat :=
  if x.exponentField = 0 then x.fraction else binade + x.fraction

/-- The power of two that scales the significand of a finite number. -/
def exponent (x : Binary64) : Int := (max x.exponentField 1 : Nat) - 1075

def isZero (x : Binary64) : Bool := x.exponentField == 0 && x.fraction == 0

/-! ## Building numbers -/

def infiniteMagnitude : Nat := 2047 * binade

/-- The number with the given sign and magnitude pattern. -/
def ofMagnitude (negative : Bool) (magnitude : Nat) : Binary64 :=
  ⟨UInt64.ofNat ((if negative then signWeight else 0) + magnitude)⟩

def zero (negative : Bool) : Binary64 := ofMagnitude negative 0

def infinity (negative : Bool) : Binary64 := ofMagnitude negative infiniteMagnitude

def nan (negative : Bool) : Binary64 := ofMagnitude negative (infiniteMagnitude + binade / 2)

def neg (x : Binary64) : Binary64 := ofMagnitude (!x.negative) (x.bits.toNat % signWeight)

/-! ## Rounding -/

/-- The greatest `e` with `2 ^ e ≤ num / den`, for positive `num` and `den`: one of the two
candidates that the bit lengths leave. -/
def binaryExponent (num den : Nat) : Int :=
  let e : Int := num.log2 - den.log2
  let fits :=
    if e < 0 then decide (den ≤ num <<< e.natAbs) else decide (den <<< e.natAbs ≤ num)
  if fits then e else e - 1

/-- The nearest integer to `num / den`, a half going to the even neighbour. -/
def roundHalfEven (num den : Nat) : Nat :=
  let q := num / den
  let r := num % den
  if den < 2 * r ∨ (2 * r = den ∧ q % 2 = 1) then q + 1 else q

/-- The number nearest to `± num / den` (with `0 < den`), ties to the even significand.
Magnitudes from half an ulp above the greatest finite number on become an infinity. The
magnitude pattern is `(q + 1074) · binade + m` for a significand `m` scaled by `2 ^ q`, so a
rounding that carries into the next binade needs no case of its own. -/
def nearest (negative : Bool) (num den : Nat) : Binary64 :=
  if num = 0 then zero negative
  else
    let q : Int := max (binaryExponent num den - 52) (-1074)
    let m := if q < 0 then roundHalfEven (num <<< q.natAbs) den
      else roundHalfEven num (den <<< q.natAbs)
    let magnitude := (q + 1074).toNat * binade + m
    ofMagnitude negative (min magnitude infiniteMagnitude)

def ofInt (i : Int) : Binary64 := nearest (decide (i < 0)) i.natAbs 1

/-- The number nearest to `num / den · 2 ^ e`. -/
def nearestScaled (num den : Nat) (e : Int) : Binary64 :=
  if e < 0 then nearest false num (den <<< e.natAbs) else nearest false (num <<< e.natAbs) den

/-- The rounded product of two finite magnitudes. -/
def mulMagnitude (x y : Binary64) : Binary64 :=
  nearestScaled (x.significand * y.significand) 1 (x.exponent + y.exponent)

/-- The rounded quotient of two finite magnitudes, the second not zero. -/
def divMagnitude (x y : Binary64) : Binary64 :=
  nearestScaled x.significand y.significand (x.exponent - y.exponent)

/-! ## Integers among the numbers -/

/-- The integer that a number denotes; an infinity, a NaN or a number with a fractional part
denotes none. -/
def whole? (x : Binary64) : Option Int :=
  if x.isFinite then
    let sign : Int := if x.negative then -1 else 1
    if 0 ≤ x.exponent then some (sign * (x.significand <<< x.exponent.natAbs : Nat))
    else if x.significand % (1 <<< x.exponent.natAbs) = 0 then
      some (sign * (x.significand >>> x.exponent.natAbs : Nat))
    else none
  else none

end Binary64

end FabricFootprint
