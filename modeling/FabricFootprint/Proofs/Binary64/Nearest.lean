import FabricFootprint.Binary64
import Mathlib.Algebra.Order.Field.Power
import Mathlib.Tactic.Positivity
import Mathlib.Tactic.NormNum
import Mathlib.Tactic.Ring

/-!
FabricFootprint.Proofs.Binary64.Nearest — how far the number nearest to a
quotient can be from it.

* `exponentField_ofMagnitude`, `fraction_ofMagnitude` — the fields of a
  number with a given pattern.
* `binaryExponent_spec` — the binary exponent of a quotient is the one it says.
* `exponentField_nearest_le`, `le_exponentField_nearest` — rounding does not take a quotient
  past a power of two, in neither direction.
* `isFinite_of_nearest` — so a quotient well within range rounds to a finite number.
-/

namespace FabricFootprint.Binary64

/-! ## Fields -/

theorem signWeight_eq : signWeight = 2 ^ 63 := rfl

theorem binade_eq : binade = 2 ^ 52 := rfl

theorem infiniteMagnitude_eq : infiniteMagnitude = 2047 * 2 ^ 52 := rfl

theorem toNat_ofMagnitude (negative : Bool) {m : Nat} (h : m ≤ infiniteMagnitude) :
    (ofMagnitude negative m).bits.toNat = (if negative then 2 ^ 63 else 0) + m := by
  rw [infiniteMagnitude_eq] at h
  show (UInt64.ofNat _).toNat = _
  rw [UInt64.toNat_ofNat', signWeight_eq]
  split <;> omega

theorem exponentField_ofMagnitude (negative : Bool) {m : Nat} (h : m ≤ infiniteMagnitude) :
    (ofMagnitude negative m).exponentField = m / 2 ^ 52 := by
  rw [exponentField, toNat_ofMagnitude negative h, binade_eq]
  rw [infiniteMagnitude_eq] at h
  split <;> omega

theorem fraction_ofMagnitude (negative : Bool) {m : Nat} (h : m ≤ infiniteMagnitude) :
    (ofMagnitude negative m).fraction = m % 2 ^ 52 := by
  rw [fraction, toNat_ofMagnitude negative h, binade_eq]
  rw [infiniteMagnitude_eq] at h
  split <;> omega

/-- A number with a pattern up to that of an infinity is finite or an
infinity, never a NaN. -/
theorem isFinite_or_isInfinite_ofMagnitude (negative : Bool) {m : Nat}
    (h : m ≤ infiniteMagnitude) :
    (ofMagnitude negative m).isFinite = true ∨
    (ofMagnitude negative m).isInfinite = true := by
  have hexponent := exponentField_ofMagnitude negative h
  have hfraction := fraction_ofMagnitude negative h
  rw [infiniteMagnitude_eq] at h
  rw [isFinite, isInfinite, hexponent, hfraction, bne_iff_ne, Bool.and_eq_true, beq_iff_eq,
    beq_iff_eq]
  omega

/-! ## The binary exponent of a quotient -/

/-- Comparing a quotient with a power of two, in natural numbers. -/
theorem two_zpow_le_div_iff (num : Nat) {den : Nat} (hden : 0 < den) (e : Int) :
    (if e < 0 then decide (den ≤ num <<< e.natAbs)
        else decide (den <<< e.natAbs ≤ num)) = true ↔
      (2 : ℚ) ^ e ≤ num / den := by
  have hpos : (0 : ℚ) < den := by exact_mod_cast hden
  split
  · next he =>
    obtain ⟨n, rfl⟩ : ∃ n : Nat, e = -n := ⟨e.natAbs, by omega⟩
    rw [decide_eq_true_iff, Int.natAbs_neg, Int.natAbs_natCast, Nat.shiftLeft_eq, zpow_neg,
      zpow_natCast, le_div_iff₀ hpos, inv_mul_le_iff₀ (by positivity), mul_comm]
    exact_mod_cast Iff.rfl
  · next he =>
    obtain ⟨n, rfl⟩ : ∃ n : Nat, e = n := ⟨e.natAbs, by omega⟩
    rw [decide_eq_true_iff, Int.natAbs_natCast, Nat.shiftLeft_eq, zpow_natCast,
      le_div_iff₀ hpos, mul_comm]
    exact_mod_cast Iff.rfl

/-- The bit lengths bound a quotient from below. -/
theorem two_zpow_log2_le_div {num den : Nat} (hnum : 0 < num) (hden : 0 < den) :
    (2 : ℚ) ^ ((num.log2 : Int) - den.log2 - 1) ≤ num / den := by
  have hpos : (0 : ℚ) < den := by exact_mod_cast hden
  have hnumLow : (2 : ℚ) ^ (num.log2 : Int) ≤ num := by
    exact_mod_cast Nat.log2_self_le hnum.ne'
  have hdenHigh : (den : ℚ) < 2 ^ ((den.log2 : Int) + 1) := by
    exact_mod_cast Nat.lt_log2_self (n := den)
  rw [le_div_iff₀ hpos]
  calc (2 : ℚ) ^ ((num.log2 : Int) - den.log2 - 1) * den
      ≤ 2 ^ ((num.log2 : Int) - den.log2 - 1) * 2 ^ ((den.log2 : Int) + 1) := by gcongr
    _ = 2 ^ (num.log2 : Int) := by rw [← zpow_add₀ two_ne_zero]; congr 1; omega
    _ ≤ num := hnumLow

/-- The bit lengths bound a quotient from above. -/
theorem div_lt_two_zpow_log2 (num : Nat) {den : Nat} (hden : 0 < den) :
    (num / den : ℚ) < 2 ^ ((num.log2 : Int) - den.log2 + 1) := by
  have hpos : (0 : ℚ) < den := by exact_mod_cast hden
  have hnumHigh : (num : ℚ) < 2 ^ ((num.log2 : Int) + 1) := by
    exact_mod_cast Nat.lt_log2_self (n := num)
  have hdenLow : (2 : ℚ) ^ (den.log2 : Int) ≤ den := by
    exact_mod_cast Nat.log2_self_le hden.ne'
  rw [div_lt_iff₀ hpos]
  calc (num : ℚ) < 2 ^ ((num.log2 : Int) + 1) := hnumHigh
    _ = 2 ^ ((num.log2 : Int) - den.log2 + 1) * 2 ^ (den.log2 : Int) := by
      rw [← zpow_add₀ two_ne_zero]; congr 1; omega
    _ ≤ 2 ^ ((num.log2 : Int) - den.log2 + 1) * den := by gcongr

/-- A positive quotient lies between the power of two of its binary
exponent and the next one. -/
theorem binaryExponent_spec {num den : Nat} (hnum : 0 < num) (hden : 0 < den) :
    (2 : ℚ) ^ binaryExponent num den ≤ num / den ∧
      (num / den : ℚ) < 2 ^ (binaryExponent num den + 1) := by
  have hfits := two_zpow_le_div_iff num hden ((num.log2 : Int) - den.log2)
  unfold binaryExponent
  simp only [hfits]
  split
  · next h => exact ⟨h, div_lt_two_zpow_log2 num hden⟩
  · next h => exact ⟨two_zpow_log2_le_div hnum hden, by simpa using h⟩

/-! ## Rounding -/

theorem roundHalfEven_le (num den : Nat) : roundHalfEven num den ≤ num / den + 1 := by
  unfold roundHalfEven
  dsimp only
  split <;> omega

theorem le_roundHalfEven (num den : Nat) : num / den ≤ roundHalfEven num den := by
  unfold roundHalfEven
  dsimp only
  split <;> omega

/-- The integer nearest to `num / den / 2 ^ q`. -/
def roundAt (num den : Nat) (q : Int) : Nat :=
  if q < 0 then roundHalfEven (num <<< q.natAbs) den else roundHalfEven num (den <<< q.natAbs)

/-- Rounding does not go past an integer, upwards or downwards. -/
theorem roundAt_bounds {num den : Nat} (hden : 0 < den) (q : Int) :
    (∀ b : Nat, (num / den : ℚ) < b * 2 ^ q → roundAt num den q ≤ b) ∧
      ∀ a : Nat, (a * 2 ^ q : ℚ) ≤ num / den → a ≤ roundAt num den q := by
  have hpos : (0 : ℚ) < den := by exact_mod_cast hden
  unfold roundAt
  split
  · next hq =>
    obtain ⟨n, rfl⟩ : ∃ n : Nat, q = -n := ⟨q.natAbs, by omega⟩
    have htwo : (0 : ℚ) < 2 ^ n := by positivity
    rw [Int.natAbs_neg, Int.natAbs_natCast, Nat.shiftLeft_eq, zpow_neg, zpow_natCast]
    refine ⟨fun b hb => ?_, fun a ha => ?_⟩
    · rw [div_lt_iff₀ hpos, mul_right_comm, ← div_eq_mul_inv, lt_div_iff₀ htwo] at hb
      have hlt : num * 2 ^ n / den < b :=
        (Nat.div_lt_iff_lt_mul hden).2 (by exact_mod_cast hb)
      exact (roundHalfEven_le _ _).trans hlt
    · rw [le_div_iff₀ hpos, mul_right_comm, ← div_eq_mul_inv, div_le_iff₀ htwo] at ha
      have hle : a ≤ num * 2 ^ n / den :=
        (Nat.le_div_iff_mul_le hden).2 (by exact_mod_cast ha)
      exact hle.trans (le_roundHalfEven _ _)
  · next hq =>
    obtain ⟨n, rfl⟩ : ∃ n : Nat, q = n := ⟨q.natAbs, by omega⟩
    have hscaled : 0 < den * 2 ^ n := by positivity
    rw [Int.natAbs_natCast, Nat.shiftLeft_eq, zpow_natCast]
    refine ⟨fun b hb => ?_, fun a ha => ?_⟩
    · rw [div_lt_iff₀ hpos, mul_assoc, mul_comm (2 ^ n : ℚ)] at hb
      have hlt : num / (den * 2 ^ n) < b :=
        (Nat.div_lt_iff_lt_mul hscaled).2 (by exact_mod_cast hb)
      exact (roundHalfEven_le _ _).trans hlt
    · rw [le_div_iff₀ hpos, mul_assoc, mul_comm (2 ^ n : ℚ)] at ha
      have hle : a ≤ num / (den * 2 ^ n) :=
        (Nat.le_div_iff_mul_le hscaled).2 (by exact_mod_cast ha)
      exact hle.trans (le_roundHalfEven _ _)

/-- The power of two that the significand of a rounded quotient is scaled by. -/
def roundedExponent (num den : Nat) : Int := max (binaryExponent num den - 52) (-1074)

theorem nearest_of_pos (negative : Bool) {num den : Nat} (hnum : 0 < num) :
    nearest negative num den =
      ofMagnitude negative
        (min ((roundedExponent num den + 1074).toNat * binade +
          roundAt num den (roundedExponent num den)) infiniteMagnitude) :=
  if_neg hnum.ne'

theorem exponentField_zero (negative : Bool) : (zero negative).exponentField = 0 :=
  (exponentField_ofMagnitude negative (Nat.zero_le _)).trans (Nat.zero_div _)

/-- A quotient below a power of two rounds to at most this power. -/
theorem exponentField_nearest_le (negative : Bool) {num den k : Nat} (hden : 0 < den)
    (h : num < den * 2 ^ k) : (nearest negative num den).exponentField ≤ 1023 + k := by
  rcases Nat.eq_zero_or_pos num with rfl | hnum
  · show (zero negative).exponentField ≤ _
    rw [exponentField_zero]
    exact Nat.zero_le _
  · have hpos : (0 : ℚ) < den := by exact_mod_cast hden
    obtain ⟨hlow, hhigh⟩ := binaryExponent_spec hnum hden
    have hbelow : (num / den : ℚ) < 2 ^ (k : Int) := by
      rw [div_lt_iff₀ hpos, zpow_natCast, mul_comm]
      exact_mod_cast h
    have hexponent : binaryExponent num den < k :=
      (zpow_lt_zpow_iff_right₀ one_lt_two).1 (hlow.trans_lt hbelow)
    have hscale : binaryExponent num den - 52 ≤ roundedExponent num den := le_max_left _ _
    have hsignificand : roundAt num den (roundedExponent num den) ≤ 2 ^ 53 := by
      refine (roundAt_bounds hden _).1 _ (hhigh.trans_le ?_)
      calc (2 : ℚ) ^ (binaryExponent num den + 1)
          ≤ 2 ^ (53 + roundedExponent num den) := zpow_le_zpow_right₀ one_le_two (by omega)
        _ = (2 ^ 53 : ℕ) * 2 ^ roundedExponent num den := by
          rw [zpow_add₀ two_ne_zero]
          norm_num
    have hmax : roundedExponent num den ≤ max (k - 53 : Int) (-1074) :=
      max_le_max (by omega) (le_refl _)
    rw [nearest_of_pos negative hnum, exponentField_ofMagnitude _ (Nat.min_le_right _ _),
      binade_eq]
    omega

/-- A quotient of one or more rounds to one or more. -/
theorem le_exponentField_nearest (negative : Bool) {num den : Nat} (hden : 0 < den)
    (h : den ≤ num) : 1023 ≤ (nearest negative num den).exponentField := by
  have hnum : 0 < num := Nat.lt_of_lt_of_le hden h
  have hpos : (0 : ℚ) < den := by exact_mod_cast hden
  obtain ⟨hlow, hhigh⟩ := binaryExponent_spec hnum hden
  have habove : (2 : ℚ) ^ (0 : Int) ≤ num / den := by
    rw [zpow_zero, le_div_iff₀ hpos, one_mul]
    exact_mod_cast h
  have hexponent : 0 < binaryExponent num den + 1 :=
    (zpow_lt_zpow_iff_right₀ one_lt_two).1 (habove.trans_lt hhigh)
  have hscale : roundedExponent num den = binaryExponent num den - 52 :=
    max_eq_left (by omega)
  have hsignificand : 2 ^ 52 ≤ roundAt num den (roundedExponent num den) := by
    refine (roundAt_bounds hden _).2 _ (le_of_eq_of_le ?_ hlow)
    rw [hscale, Nat.cast_pow, Nat.cast_ofNat, ← zpow_natCast, ← zpow_add₀ two_ne_zero]
    congr 1
    omega
  rw [nearest_of_pos negative hnum, exponentField_ofMagnitude _ (Nat.min_le_right _ _),
    binade_eq, infiniteMagnitude_eq]
  omega

/-- The nearest number is finite or an infinity, never a NaN. -/
theorem isFinite_or_isInfinite_nearest (negative : Bool) (num den : Nat) :
    (nearest negative num den).isFinite = true ∨
    (nearest negative num den).isInfinite = true := by
  unfold nearest
  split
  · exact isFinite_or_isInfinite_ofMagnitude negative (Nat.zero_le _)
  · exact isFinite_or_isInfinite_ofMagnitude negative (Nat.min_le_right _ _)

/-! ## Finite results -/

theorem significand_lt (x : Binary64) : x.significand < 2 ^ 53 := by
  have hfraction : x.fraction < 2 ^ 52 := Nat.mod_lt _ (by decide)
  rw [significand, binade_eq]
  split <;> omega

theorem isFinite_of_exponentField_lt {x : Binary64} (h : x.exponentField < 2047) :
    x.isFinite = true := bne_iff_ne.2 h.ne

theorem neg_isFinite {x : Binary64} (h : x.isFinite = true) : x.neg.isFinite = true := by
  have hfield : x.bits.toNat / 2 ^ 52 % 2048 ≠ 2047 := bne_iff_ne.1 h
  have hmagnitude : x.bits.toNat % signWeight ≤ infiniteMagnitude := by
    rw [signWeight_eq, infiniteMagnitude_eq]
    omega
  refine isFinite_of_exponentField_lt ?_
  rw [neg, exponentField_ofMagnitude _ hmagnitude, signWeight_eq]
  omega

/-- A quotient by one or more is at most doubled by rounding. -/
theorem exponentField_divMagnitude_le {x y : Binary64} {j : Nat}
    (hx : x.exponentField ≤ 1023 + j)
    (hy : 1023 ≤ y.exponentField) : (x.divMagnitude y).exponentField ≤ 1023 + (j + 1) := by
  have hxs := significand_lt x
  have hys : 2 ^ 52 ≤ y.significand := by
    rw [significand, if_neg (by omega), binade_eq]
    omega
  have hscale : x.exponent - y.exponent ≤ j := by
    unfold exponent
    omega
  unfold divMagnitude nearestScaled
  split
  · next he =>
    have hpow : 1 ≤ 2 ^ (x.exponent - y.exponent).natAbs := Nat.one_le_two_pow
    have hpow' : 2 ^ 1 ≤ 2 ^ (j + 1) := Nat.pow_le_pow_right two_pos (by omega)
    rw [Nat.shiftLeft_eq]
    refine exponentField_nearest_le false (by positivity) ?_
    calc x.significand < 2 ^ 52 * 1 * 2 ^ 1 := hxs
      _ ≤ y.significand * 2 ^ (x.exponent - y.exponent).natAbs * 2 ^ (j + 1) := by gcongr
  · next he =>
    have hnat : (x.exponent - y.exponent).natAbs ≤ j := by omega
    rw [Nat.shiftLeft_eq]
    refine exponentField_nearest_le false (by positivity) ?_
    calc x.significand * 2 ^ (x.exponent - y.exponent).natAbs
        ≤ x.significand * 2 ^ j := by gcongr; exact one_le_two
      _ < 2 ^ 53 * 2 ^ j := by gcongr
      _ = 2 ^ 52 * 2 ^ (j + 1) := by ring
      _ ≤ y.significand * 2 ^ (j + 1) := by gcongr

/-- A rounded product that is no infinity is finite. -/
theorem isFinite_mulMagnitude {x y : Binary64} (h : (x.mulMagnitude y).isInfinite = false) :
    (x.mulMagnitude y).isFinite = true := by
  have hrounded : (x.mulMagnitude y).isFinite = true ∨
      (x.mulMagnitude y).isInfinite = true := by
    unfold mulMagnitude nearestScaled
    split <;> exact isFinite_or_isInfinite_nearest _ _ _
  exact hrounded.resolve_right (Bool.eq_false_iff.1 h)

end FabricFootprint.Binary64
