import FabricFootprint.Conversion
import FabricFootprint.Proofs.Binary64.Exact

/-!
FabricFootprint.Proofs.Conversion.Whole — conversions between integers and
floating-point numbers.

* `ConversionRegistry.convert_eq_ok_iff`, `convert_eq_failed` — a conversion between two types
  succeeds and fails as the registered converter does.
* `value_ofInt_maxValue`, `floatToInteger_eq_ok_iff` — the bound of the conversion
  to an integer is the number nearest to the greatest integer, which this integer
  itself does not reach.
* `convert_float_eq_ok_iff` — a number is converted exactly when its value is a 64-bit
  integer, except for the least one; the integer is this value.
* `standard_whole_exact` — so nothing is rounded or cut off on the way to an integer, and an
  integer that some number denotes comes back, again except for the least one.
* `standard_least_refused` — the least integer is a whole number, but it is not taken for one.
-/

namespace FabricFootprint

/-! ## Registered converters -/

namespace ConversionRegistry

variable {r : ConversionRegistry} {source target : ValueType} {f : Converter} {v : Value}

/-- A conversion between two types succeeds as the converter that is
registered for them does. -/
theorem convert_eq_ok_iff (hne : source ≠ target) (hf : r.converter? source target = some f)
    {w : Value} : r.convert source target v = .ok w ↔ f v = .ok w := by
  rw [convert, if_neg hne, hf]
  dsimp only
  cases f v <;> simp

/-- It fails with the converter's reason. -/
theorem convert_eq_failed (hne : source ≠ target) (hf : r.converter? source target = some f)
    {reason : String} (h : f v = .error reason) :
    r.convert source target v = .error (.failed source target v.text reason) := by
  rw [convert, if_neg hne, hf]
  dsimp only
  rw [h]

end ConversionRegistry

/-! ## Integers of 64 bits -/

theorem integerBound_eq : Decimal.integerBound = 2 ^ 63 := rfl

theorem toInt_ofInt_of_lt {n : Int} (h : n.natAbs < Decimal.integerBound) :
    (Int64.ofInt n).toInt = n := by
  rw [integerBound_eq] at h
  exact Int64.toInt_ofInt_of_le (by omega) (by omega)

/-- Only the least integer has a magnitude of `2 ^ 63`. -/
theorem natAbs_toInt_lt_iff {i : Int64} :
    i.toInt.natAbs < Decimal.integerBound ↔ i ≠ Int64.minValue := by
  have hlow := i.le_toInt
  have hhigh := i.toInt_lt
  rw [integerBound_eq, ne_eq, ← Int64.toInt_inj, Int64.toInt_minValue]
  omega

theorem ofInt_ne_minValue {n : Int} (h : n.natAbs < Decimal.integerBound) :
    Int64.ofInt n ≠ Int64.minValue := by
  rw [← natAbs_toInt_lt_iff, toInt_ofInt_of_lt h]
  exact h

/-! ## From numbers to integers -/

/-- The greatest integer is no number of the format; the number nearest to it
is the bound itself. -/
theorem value_ofInt_maxValue :
    (Binary64.ofInt Int64.maxValue.toInt).value = Decimal.integerBound := by
  have hsign : (Binary64.ofInt Int64.maxValue.toInt).signFactor = 1 := by decide
  have hsignificand : (Binary64.ofInt Int64.maxValue.toInt).significand = 2 ^ 52 := by decide
  have hexponent : (Binary64.ofInt Int64.maxValue.toInt).exponent = 11 := by decide
  rw [Binary64.value, hsign, hsignificand, hexponent, integerBound_eq]
  norm_num

/-- So to be within the bound is to have a magnitude below the number nearest to
the greatest integer. -/
theorem natAbs_lt_integerBound_iff {x : Binary64} {n : Int} (hvalue : x.value = n) :
    n.natAbs < Decimal.integerBound ↔
      |x.value| < (Binary64.ofInt Int64.maxValue.toInt).value := by
  rw [value_ofInt_maxValue, hvalue, ← Int.cast_abs, Int.abs_eq_natAbs]
  exact_mod_cast Iff.rfl

theorem floatToInteger_eq_ok_iff {x : Binary64} {w : Value} :
    Converter.floatToInteger (.float x) = .ok w ↔
      ∃ n : Int, x.isFinite = true ∧ x.value = n ∧
        |x.value| < (Binary64.ofInt Int64.maxValue.toInt).value ∧
        w = .int (Int64.ofInt n) := by
  have hwhole : Converter.floatToInteger (.float x) = .ok w ↔
      ∃ n, x.whole? = some n ∧ n.natAbs < Decimal.integerBound ∧
        w = .int (Int64.ofInt n) := by
    simp only [Converter.floatToInteger]
    cases x.whole? with
    | none => simp
    | some n => by_cases hbound : n.natAbs < Decimal.integerBound <;> simp [hbound, eq_comm]
  rw [hwhole]
  refine exists_congr fun n => ?_
  rw [Binary64.whole?_eq_some_iff, and_assoc]
  refine and_congr_right fun _ => and_congr_right fun hvalue => ?_
  rw [natAbs_lt_integerBound_iff hvalue]

theorem convert_float_eq_ok_iff {x : Binary64} {w : Value} :
    ConversionRegistry.standard.convert .float .integer (.float x) = .ok w ↔
      ∃ i : Int64, w = .int i ∧ i ≠ Int64.minValue ∧ x.isFinite = true ∧
        x.value = i.toInt := by
  rw [ConversionRegistry.convert_eq_ok_iff (by decide) rfl, floatToInteger_eq_ok_iff]
  constructor
  · rintro ⟨n, hfinite, hvalue, hbelow, rfl⟩
    have hbound : n.natAbs < Decimal.integerBound :=
      (natAbs_lt_integerBound_iff hvalue).2 hbelow
    refine ⟨Int64.ofInt n, rfl, ofInt_ne_minValue hbound, hfinite, ?_⟩
    rw [toInt_ofInt_of_lt hbound, hvalue]
  · rintro ⟨i, rfl, hleast, hfinite, hvalue⟩
    have hbelow := (natAbs_lt_integerBound_iff hvalue).1 (natAbs_toInt_lt_iff.2 hleast)
    exact ⟨i.toInt, hfinite, hvalue, hbelow, by rw [Int64.ofInt_toInt]⟩

/-- The conversions between integers and floating-point numbers are exact. A number is
converted to an integer exactly when it is finite and its value is an integer between
`-2 ^ 63` and `2 ^ 63`, both ends excluded; the result is its value, and NaNs and infinities
fail. An integer that some number denotes is the same again after the conversion to a number
and back, unless it is the least one. -/
theorem standard_whole_exact (x : Binary64) (i : Int64) :
    let convert := ConversionRegistry.standard.convert
    ((∃ w, convert .float .integer (.float x) = .ok w) ↔
      x.isFinite = true ∧ ∃ n : Int, x.value = n ∧ -2 ^ 63 < n ∧ n ≤ 2 ^ 63 - 1) ∧
    (∀ w, convert .float .integer (.float x) = .ok w →
      ∃ j : Int64, w = .int j ∧ x.value = j.toInt) ∧
    (x.isNaN = true ∨ x.isInfinite = true →
      ∃ fault, convert .float .integer (.float x) = .error fault) ∧
    ((∃ y : Binary64, y.isFinite = true ∧ y.value = i.toInt) →
      ((convert .integer .float (.int i)).bind (convert .float .integer) = .ok (.int i) ↔
        i ≠ Int64.minValue)) := by
  intro convert
  refine ⟨⟨?_, ?_⟩, ?_, ?_, ?_⟩
  · rintro ⟨w, hw⟩
    obtain ⟨j, -, hleast, hfinite, hvalue⟩ := convert_float_eq_ok_iff.1 hw
    have hbound := natAbs_toInt_lt_iff.2 hleast
    rw [integerBound_eq] at hbound
    exact ⟨hfinite, j.toInt, hvalue, by omega, by omega⟩
  · rintro ⟨hfinite, n, hvalue, hlow, hhigh⟩
    have hbound : n.natAbs < Decimal.integerBound := by
      rw [integerBound_eq]
      omega
    refine ⟨.int (Int64.ofInt n),
      convert_float_eq_ok_iff.2 ⟨_, rfl, ofInt_ne_minValue hbound, hfinite, ?_⟩⟩
    rw [toInt_ofInt_of_lt hbound, hvalue]
  · intro w hw
    obtain ⟨j, hj, -, -, hvalue⟩ := convert_float_eq_ok_iff.1 hw
    exact ⟨j, hj, hvalue⟩
  · intro hspecial
    cases hresult : convert .float .integer (.float x) with
    | error fault => exact ⟨fault, rfl⟩
    | ok w =>
      obtain ⟨j, -, -, hfinite, -⟩ := convert_float_eq_ok_iff.1 hresult
      simp only [Binary64.isNaN, Binary64.isInfinite, Binary64.isFinite, Bool.and_eq_true,
        beq_iff_eq, bne_iff_ne] at hspecial hfinite
      omega
  · rintro ⟨y, hfinite, hvalue⟩
    obtain ⟨hfinite', hvalue'⟩ := Binary64.value_ofInt hfinite hvalue
    -- the number in between is the one nearest to the integer, which denotes it exactly
    refine (convert_float_eq_ok_iff (x := .ofInt i.toInt)).trans ⟨?_, fun hleast => ?_⟩
    · rintro ⟨j, hj, hleast, -, -⟩
      cases hj
      exact hleast
    · exact ⟨i, rfl, hleast, hfinite', hvalue'⟩

/-- The least integer is read from text and denoted by a number, but the way back from this
number is refused for not being whole. -/
theorem standard_least_refused :
    let convert := ConversionRegistry.standard.convert
    let x := Binary64.ofInt Int64.minValue.toInt
    convert .string .integer (.str "-9223372036854775808") = .ok (.int Int64.minValue) ∧
      convert .integer .float (.int Int64.minValue) = .ok (.float x) ∧
      x.isFinite = true ∧ x.value = (-2 ^ 63 : Int) ∧
      convert .float .integer (.float x) =
        .error (.failed .float .integer x.text (x.text ++ " is not a whole number")) := by
  intro convert x
  have hsign : x.signFactor = -1 := by decide
  have hsignificand : x.significand = 2 ^ 52 := by decide
  have hexponent : x.exponent = 11 := by decide
  have hwhole : x.whole? = some (-2 ^ 63) := by decide
  refine ⟨by decide, rfl, by decide, ?_, ?_⟩
  · rw [Binary64.value, hsign, hsignificand, hexponent]
    norm_num
  · refine ConversionRegistry.convert_eq_failed (by decide) rfl ?_
    simp [Converter.floatToInteger, hwhole, integerBound_eq]

end FabricFootprint
