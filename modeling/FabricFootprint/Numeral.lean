/-!
FabricFootprint.Numeral — decimal numerals as written: a sign, a whole part, digits after the
point and an exponent.

A numeral is finer than the number it denotes: `1`, `1.0` and `1e0` are three numerals, and
documents tell an integer from a floating-point number by the numeral alone. `Numeral.chars`
is the written form; a numeral without fraction digits has no point.
-/

namespace FabricFootprint

/-- A decimal numeral. -/
structure Numeral where
  negative : Bool
  whole : Nat
  /-- The digits after the point; none means that there is no point either. -/
  fraction : List (Fin 10)
  exponent : Option Int
  deriving DecidableEq, Inhabited

namespace Numeral

def digitOf (n : Nat) : Fin 10 := ⟨n % 10, Nat.mod_lt n (by decide)⟩

def digitChar (d : Fin 10) : Char := Nat.digitChar d.val

/-- An integer in decimal digits, with a minus sign when negative. -/
def signedDigits (i : Int) : List Char :=
  (if i < 0 then ['-'] else []) ++ Nat.toDigits 10 i.natAbs

/-- An exponent in decimal digits, always with a sign. -/
def exponentDigits (e : Int) : List Char :=
  (if e < 0 then '-' else '+') :: Nat.toDigits 10 e.natAbs

/-- The last `k` decimal digits of `n`, most significant first. -/
def places (k n : Nat) : List (Fin 10) :=
  (List.range k).reverse.map fun i => digitOf (n / Nat.pow 10 i)

/-- The written form of a numeral; an exponent always has a sign. -/
def chars (n : Numeral) : List Char :=
  (if n.negative then ['-'] else []) ++ Nat.toDigits 10 n.whole ++
    (if n.fraction.isEmpty then [] else '.' :: n.fraction.map digitChar) ++
    (match n.exponent with
      | none => []
      | some e => 'e' :: exponentDigits e)

def isWhole (n : Numeral) : Bool := n.fraction.isEmpty && n.exponent.isNone

def ofInt (i : Int) : Numeral := ⟨decide (i < 0), i.natAbs, [], none⟩

theorem places_length (k n : Nat) : (places k n).length = k := by simp [places]

end Numeral

end FabricFootprint
