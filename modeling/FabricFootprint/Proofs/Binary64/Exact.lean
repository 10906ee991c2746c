import FabricFootprint.Proofs.Binary64.Neighbours

/-!
FabricFootprint.Proofs.Binary64.Exact — the rational that a number denotes, and
when nothing is rounded.

* `value` — the rational that a finite number denotes.
* `whole?_eq_some_iff` — the integer of a number is its value, and is missing only when the
  value is no integer or there is no value.
* `nearest_of_magnitude` — the number nearest to the magnitude of a finite
  number is this number.
* `value_ofInt` — an integer that some number denotes is denoted by the number nearest to it.
-/

namespace FabricFootprint.Binary64

/-! ## Values -/

/-- The sign of a number as a factor. -/
def signFactor (x : Binary64) : Int := if x.negative then -1 else 1

/-- The rational that a finite number denotes. -/
def value (x : Binary64) : ℚ := x.signFactor * (x.significand * 2 ^ x.exponent)

theorem signFactor_mul_self (x : Binary64) : x.signFactor * x.signFactor = 1 := by
  unfold signFactor
  split <;> rfl

/-- A number with a negative exponent denotes an integer when this one, scaled up,
is the significand. -/
theorem value_eq_iff_of_neg {x : Binary64} {k : Nat} (hk : x.exponent = -k) {n : Int} :
    x.value = n ↔ x.signFactor * x.significand = n * 2 ^ k := by
  have htwo : (2 : ℚ) ^ k ≠ 0 := by positivity
  rw [value, hk, zpow_neg, zpow_natCast, ← mul_assoc, ← div_eq_mul_inv, div_eq_iff htwo]
  exact_mod_cast Iff.rfl

/-- Then the power of two that the exponent takes away divides the significand. -/
theorem significand_mod_of_value_eq {x : Binary64} {k : Nat} (hk : x.exponent = -k) {n : Int}
    (h : x.value = n) : x.significand % 2 ^ k = 0 := by
  rw [value_eq_iff_of_neg hk] at h
  have hmultiple : (x.significand : Int) = x.signFactor * n * 2 ^ k := by
    rw [mul_assoc, ← h, ← mul_assoc, signFactor_mul_self, one_mul]
  have hdvd : ((2 ^ k : Nat) : Int) ∣ x.significand := by
    rw [hmultiple]
    push_cast
    exact dvd_mul_left _ _
  exact Nat.mod_eq_zero_of_dvd (Int.natCast_dvd_natCast.1 hdvd)

theorem whole?_eq_some_iff {x : Binary64} {n : Int} :
    x.whole? = some n ↔ x.isFinite = true ∧ x.value = n := by
  unfold whole?
  split
  · next hfinite =>
    rw [show (if x.negative then -1 else 1 : Int) = x.signFactor from rfl]
    simp only [hfinite, true_and]
    split
    · next hexponent =>
      obtain ⟨k, hk⟩ := Int.eq_ofNat_of_zero_le hexponent
      rw [Option.some.injEq, value, hk, Int.natAbs_natCast, Nat.shiftLeft_eq, zpow_natCast]
      exact_mod_cast Iff.rfl
    · next hexponent =>
      obtain ⟨k, hk⟩ : ∃ k : Nat, x.exponent = -k := ⟨x.exponent.natAbs, by omega⟩
      rw [hk, Int.natAbs_neg, Int.natAbs_natCast, Nat.one_shiftLeft,
        Nat.shiftRight_eq_div_pow]
      split
      · next hdivides =>
        obtain ⟨m, hm⟩ := Nat.dvd_of_mod_eq_zero hdivides
        have hpow : (2 : Int) ^ k ≠ 0 := by positivity
        rw [value_eq_iff_of_neg hk, hm, Nat.mul_div_cancel_left _ (Nat.two_pow_pos k),
          Option.some.injEq]
        push_cast
        rw [mul_left_comm, mul_comm n, mul_right_inj' hpow]
      · next hdivides =>
        exact iff_of_false (fun h => nomatch h) fun h =>
          hdivides (significand_mod_of_value_eq hk h)
  · next hfinite => simp [hfinite]

/-! ## Rounding without a rest -/

theorem roundHalfEven_mul (m : Nat) {den : Nat} (hden : 0 < den) :
    roundHalfEven (m * den) den = m := by
  simp only [roundHalfEven, Nat.mul_div_cancel _ hden, Nat.mul_mod_left]
  rw [if_neg (by omega)]

/-- A quotient that is a multiple of the power of two rounds to this multiple. -/
theorem roundAt_of_eq {num den m : Nat} (hden : 0 < den) {q : Int}
    (h : (num / den : ℚ) = m * 2 ^ q) : roundAt num den q = m := by
  have hden' : (den : ℚ) ≠ 0 := by exact_mod_cast hden.ne'
  unfold roundAt
  split
  · obtain ⟨n, rfl⟩ : ∃ n : Nat, q = -n := ⟨q.natAbs, by omega⟩
    have htwo : (2 : ℚ) ^ n ≠ 0 := by positivity
    rw [zpow_neg, zpow_natCast, ← div_eq_mul_inv, div_eq_div_iff hden' htwo] at h
    rw [Int.natAbs_neg, Int.natAbs_natCast, Nat.shiftLeft_eq]
    have hscaled : num * 2 ^ n = m * den := by exact_mod_cast h
    rw [hscaled, roundHalfEven_mul m hden]
  · obtain ⟨n, rfl⟩ : ∃ n : Nat, q = n := ⟨q.natAbs, by omega⟩
    rw [zpow_natCast, div_eq_iff hden', mul_assoc, mul_comm ((2 : ℚ) ^ n)] at h
    rw [Int.natAbs_natCast, Nat.shiftLeft_eq]
    have hscaled : num = m * (den * 2 ^ n) := by exact_mod_cast h
    rw [hscaled, roundHalfEven_mul m (by positivity)]

section Magnitude

variable {x : Binary64} {num den : Nat} (hden : 0 < den)
  (h : (num / den : ℚ) = x.significand * 2 ^ x.exponent)

include hden h

/-- The significand of a magnitude is scaled as it is in the number: a normal number has the
hidden bit in the place that rounding looks for, and any other one has the least exponent. -/
theorem roundedExponent_of_magnitude (hnum : 0 < num) :
    roundedExponent num den = x.exponent := by
  obtain ⟨hlow, hhigh⟩ := binaryExponent_spec hnum hden
  rw [h] at hlow hhigh
  have hfraction : x.fraction < 2 ^ 52 := Nat.mod_lt _ (by decide)
  have hbelow {k : Nat} (hk : x.significand < 2 ^ k) :
      binaryExponent num den < k + x.exponent := by
    refine (zpow_lt_zpow_iff_right₀ one_lt_two).1 (hlow.trans_lt ?_)
    rw [zpow_add₀ two_ne_zero, zpow_natCast]
    have hcast : (x.significand : ℚ) < 2 ^ k := by exact_mod_cast hk
    gcongr
  have hleast : -1074 ≤ x.exponent := by
    unfold exponent
    omega
  unfold roundedExponent
  by_cases hsubnormal : x.exponentField = 0
  · have hexponent : x.exponent = -1074 := by
      rw [exponent, hsubnormal]
      rfl
    have hsignificand : x.significand < 2 ^ 52 := by
      rw [significand, if_pos hsubnormal]
      exact hfraction
    have hupper := hbelow hsignificand
    omega
  · have hsignificand : 2 ^ 52 ≤ x.significand := by
      rw [significand, if_neg hsubnormal, binade_eq]
      omega
    have habove : 52 + x.exponent < binaryExponent num den + 1 := by
      refine (zpow_lt_zpow_iff_right₀ one_lt_two).1 (lt_of_le_of_lt ?_ hhigh)
      rw [zpow_add₀ two_ne_zero]
      have hcast : (2 : ℚ) ^ (52 : Int) ≤ x.significand := by exact_mod_cast hsignificand
      gcongr
    have hupper := hbelow (significand_lt x)
    omega

end Magnitude

theorem pattern_lt_of_isFinite {x : Binary64} (hfinite : x.isFinite = true) :
    x.pattern < infiniteMagnitude := by
  have hfield : x.exponentField ≠ 2047 := bne_iff_ne.1 hfinite
  have hpattern : x.pattern < 2 ^ 63 := Nat.mod_lt _ (by decide)
  rw [exponentField_eq] at hfield
  rw [infiniteMagnitude_eq]
  omega

/-- The pattern counts the significands below, those of each exponent in turn. -/
theorem pattern_eq (x : Binary64) :
    x.pattern = (x.exponent + 1074).toNat * 2 ^ 52 + x.significand := by
  rw [exponent, significand, exponentField_eq, fraction_eq, binade_eq]
  split <;> omega

/-- The number nearest to the magnitude of a finite number has the pattern of this number. -/
theorem nearest_of_magnitude (negative : Bool) {x : Binary64} (hfinite : x.isFinite = true)
    {num den : Nat} (hden : 0 < den) (h : (num / den : ℚ) = x.significand * 2 ^ x.exponent) :
    nearest negative num den = ofMagnitude negative x.pattern := by
  have hden' : (den : ℚ) ≠ 0 := by exact_mod_cast hden.ne'
  have htwo : (2 : ℚ) ^ x.exponent ≠ 0 := by positivity
  rcases Nat.eq_zero_or_pos num with rfl | hnum
  · have hzero : x.significand = 0 := by
      rw [Nat.cast_zero, zero_div, eq_comm, mul_eq_zero] at h
      exact_mod_cast h.resolve_right htwo
    have hpattern : x.pattern = 0 := by
      rw [significand, exponentField_eq, fraction_eq, binade_eq] at hzero
      split at hzero <;> omega
    rw [hpattern]
    rfl
  · rw [nearest_of_pos negative hnum, roundedExponent_of_magnitude hden h hnum,
      roundAt_of_eq hden h, binade_eq, ← pattern_eq,
      Nat.min_eq_left (pattern_lt_of_isFinite hfinite).le]

/-! ## Signs -/

theorem negative_ofMagnitude (negative : Bool) {m : Nat} (h : m ≤ infiniteMagnitude) :
    (ofMagnitude negative m).negative = negative := by
  rw [Binary64.negative, toNat_ofMagnitude negative h, signWeight_eq]
  rw [infiniteMagnitude_eq] at h
  cases negative
  · simp only [Bool.false_eq_true, if_false, beq_eq_false_iff_ne]
    omega
  · simp only [if_true, beq_iff_eq]
    omega

/-- A number with the pattern of a finite one and a sign of its own. -/
theorem value_ofMagnitude (negative : Bool) {x : Binary64} (hfinite : x.isFinite = true) :
    (ofMagnitude negative x.pattern).isFinite = true ∧
      (ofMagnitude negative x.pattern).value =
        ((if negative then -1 else 1 : Int) : ℚ) * (x.significand * 2 ^ x.exponent) := by
  have hle := (pattern_lt_of_isFinite hfinite).le
  have hfield : (ofMagnitude negative x.pattern).exponentField = x.exponentField := by
    rw [exponentField_ofMagnitude negative hle, exponentField_eq]
  have hfraction : (ofMagnitude negative x.pattern).fraction = x.fraction := by
    rw [fraction_ofMagnitude negative hle, fraction_eq]
  refine ⟨?_, ?_⟩
  · rw [isFinite, hfield]
    exact hfinite
  · rw [value, signFactor, negative_ofMagnitude negative hle, significand, exponent, hfield,
      hfraction]
    rfl

/-- An integer that some finite number denotes is denoted by the number nearest to it. -/
theorem value_ofInt {i : Int} {x : Binary64} (hfinite : x.isFinite = true) (h : x.value = i) :
    (ofInt i).isFinite = true ∧ (ofInt i).value = i := by
  have hmagnitude : ((i.natAbs : Nat) / (1 : Nat) : ℚ) = x.significand * 2 ^ x.exponent := by
    have hnonneg : (0 : ℚ) ≤ x.significand * 2 ^ x.exponent := by positivity
    rw [Nat.cast_one, div_one, Nat.cast_natAbs, Int.cast_abs, ← h, value, abs_mul,
      abs_of_nonneg hnonneg]
    unfold signFactor
    split <;> simp
  obtain ⟨hfinite', hvalue⟩ := value_ofMagnitude (decide (i < 0)) hfinite
  rw [ofInt, nearest_of_magnitude _ hfinite one_pos hmagnitude]
  refine ⟨hfinite', ?_⟩
  rw [hvalue, ← hmagnitude, Nat.cast_one, div_one, ← Int.cast_natCast, ← Int.cast_mul]
  congr 1
  simp only [decide_eq_true_eq]
  split <;> omega

end FabricFootprint.Binary64
