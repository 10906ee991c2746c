import FabricFootprint.Proofs.Binary64.Nearest
import Mathlib.Order.Monotone.Basic

/-!
FabricFootprint.Proofs.Binary64.Neighbours — the intervals of reals around the numbers.

The patterns of magnitudes count the numbers upwards, so the neighbours of a number have the
pattern before and the pattern after its own.

* `lowEnd`, `highEnd` — where the interval of a pattern starts and ends, in quarters of the
  least positive number: all ends are integers there.
* `highEnd_eq_lowEnd_succ` — every interval ends where the next one starts, also across a
  power of two, where the lower half of the interval is half as long.
* `RoundsTo.unique` — the intervals have no point in common: a shared end belongs to the one
  of the two numbers whose pattern is even.
-/

namespace FabricFootprint.Binary64

/-! ## Patterns -/

/-- The pattern of a number without its sign. -/
def pattern (x : Binary64) : Nat := x.bits.toNat % 2 ^ 63

theorem exponentField_eq (x : Binary64) : x.exponentField = x.pattern / 2 ^ 52 := by
  rw [exponentField, pattern, binade_eq]
  omega

theorem fraction_eq (x : Binary64) : x.fraction = x.pattern % 2 ^ 52 := by
  rw [fraction, pattern, binade_eq]
  omega

/-- The significand of a pattern. -/
def significandOf (n : Nat) : Nat :=
  if n / 2 ^ 52 = 0 then n % 2 ^ 52 else 2 ^ 52 + n % 2 ^ 52

/-- The weight of a significand's last bit, in least positive numbers. -/
def unitOf (n : Nat) : Nat := 2 ^ (max (n / 2 ^ 52) 1 - 1)

/-- The lower half of an interval: half a unit, a quarter below a power of two. -/
def quartersBelow (n : Nat) : Nat := if n % 2 ^ 52 = 0 ∧ 1 < n / 2 ^ 52 then 1 else 2

def lowEnd (n : Nat) : Nat := (4 * significandOf n - quartersBelow n) * unitOf n

def highEnd (n : Nat) : Nat := (4 * significandOf n + 2) * unitOf n

theorem unitOf_pos (n : Nat) : 0 < unitOf n := Nat.two_pow_pos _

/-- Every interval ends where the next one starts. -/
theorem highEnd_eq_lowEnd_succ (n : Nat) : highEnd n = lowEnd (n + 1) := by
  unfold highEnd lowEnd significandOf unitOf quartersBelow
  by_cases hcarry : n % 2 ^ 52 = 2 ^ 52 - 1
  · have hdiv : (n + 1) / 2 ^ 52 = n / 2 ^ 52 + 1 := by omega
    have hmod : (n + 1) % 2 ^ 52 = 0 := by omega
    rw [hdiv, hmod, hcarry]
    by_cases hsub : n / 2 ^ 52 = 0
    · rw [hsub]
      rfl
    · -- the next number has the next exponent: its unit is twice as large
      have hunit : max (n / 2 ^ 52 + 1) 1 - 1 = (max (n / 2 ^ 52) 1 - 1) + 1 := by omega
      rw [if_neg hsub, if_neg (by omega), if_pos (by omega), hunit]
      generalize max (n / 2 ^ 52) 1 - 1 = e
      rw [pow_succ 2 e]
      omega
  · have hdiv : (n + 1) / 2 ^ 52 = n / 2 ^ 52 := by omega
    have hmod : (n + 1) % 2 ^ 52 = n % 2 ^ 52 + 1 := by omega
    rw [hdiv, hmod, if_neg (c := _ ∧ _) (by omega)]
    congr 1
    split <;> omega

theorem lowEnd_lt_highEnd (n : Nat) : lowEnd n < highEnd n :=
  Nat.mul_lt_mul_of_pos_right (by omega) (unitOf_pos n)

theorem lowEnd_strictMono : StrictMono lowEnd :=
  strictMono_nat_of_lt_succ fun n => highEnd_eq_lowEnd_succ n ▸ lowEnd_lt_highEnd n

/-- A quarter of the least positive number. -/
def quarter : ℚ := 2 ^ (-1076 : Int)

theorem quarter_pos : 0 < quarter := zpow_pos two_pos _

/-- A real rounds to a finite magnitude: it lies in its interval, whose ends belong to it when
its pattern is even. -/
structure RoundsTo (r : ℚ) (n : Nat) : Prop where
  low : lowEnd n * quarter ≤ r
  high : r ≤ highEnd n * quarter
  open_low : n % 2 = 1 → lowEnd n * quarter < r
  open_high : n % 2 = 1 → r < highEnd n * quarter

/-- No real rounds to a pattern and to a later one: it would be the end that they share, which
only one of them has. -/
theorem RoundsTo.not_lt {r : ℚ} {n k : Nat} (hn : RoundsTo r n) (hk : RoundsTo r k) :
    ¬n < k := by
  intro hlt
  have hhigh := hn.high
  have hopen := hn.open_high
  rw [highEnd_eq_lowEnd_succ] at hhigh hopen
  have hle : lowEnd k ≤ lowEnd (n + 1) := by
    have hends : (lowEnd k : ℚ) * quarter ≤ lowEnd (n + 1) * quarter := hk.low.trans hhigh
    exact_mod_cast le_of_mul_le_mul_right hends quarter_pos
  obtain rfl : k = n + 1 := Nat.le_antisymm (lowEnd_strictMono.le_iff_le.1 hle) hlt
  rcases Nat.mod_two_eq_zero_or_one n with heven | hodd
  · exact absurd (hk.open_low (by omega)) hhigh.not_gt
  · exact absurd (hopen hodd) hk.low.not_gt

/-- A real rounds to one pattern at most. -/
theorem RoundsTo.unique {r : ℚ} {n k : Nat} (hn : RoundsTo r n) (hk : RoundsTo r k) : n = k :=
  Nat.le_antisymm (Nat.le_of_not_lt (hk.not_lt hn)) (Nat.le_of_not_lt (hn.not_lt hk))

end FabricFootprint.Binary64
