import FabricFootprint.Json.Scalar
import FabricFootprint.Proofs.Binary64.Nearest
import FabricFootprint.Proofs.Document.Node

/-!
FabricFootprint.Proofs.Json.Scalar — which values a JSON document gives back.

* `GivesBack` — a value is written as a scalar that stands for this value.
* `givesBack_of_not_float` — so is every value that is no floating-point number. A
  floating-point number has to be finite, and its numeral has to be read back exactly
  (`Binary64.IsReread`), which the approximate reading of numerals leaves open.
* `Layout.isWhole_ofFinite_document`, `givesBack_float_iff` — the kind of the value is not
  left open: a number is never written as an integer. Where numerals are read back exactly,
  finite values are given back (`givesBack_of_floats`).
* `rereads_ofDatum` — on these values JSON is a format that gives back what it writes.
* `isFinite_of_value?` — whatever a document says, no NaN and no infinity is read from it.
-/

namespace FabricFootprint

/-- A value that is no NaN and no infinity. -/
def Value.isFinite : Value → Bool
  | .float x => x.isFinite
  | _ => true

/-! ## Numerals of numbers -/

namespace Binary64

/-- In documents a number is written with a point or with an exponent. -/
theorem Layout.isWhole_numeral_document (negative : Bool) (d : Digits) :
    (document.numeral negative d).isWhole = false := by
  rw [numeral]
  -- without an exponent, digits or a zero stand behind the point
  by_cases hpositional :
    document.positional ((Nat.toDigits 10 d.digits).length + d.scale) = true
  · rw [if_pos hpositional]
    by_cases hscale : d.scale < 0
    · have hplaces : Numeral.places d.scale.natAbs d.digits ≠ [] := by
        rw [← List.length_pos_iff, Numeral.places_length]
        omega
      rw [if_pos hscale]
      simp [Numeral.isWhole, hplaces]
    · rw [if_neg hscale]
      rfl
  · rw [if_neg hpositional]
    simp [Numeral.isWhole]

theorem Layout.isWhole_ofFinite_document (x : Binary64) :
    (document.ofFinite x).isWhole = false := by
  unfold ofFinite
  split
  · rfl
  · exact isWhole_numeral_document _ _

/-- The numeral that a number is written as in documents is read as this number. -/
def IsReread (x : Binary64) : Prop := (Layout.document.ofFinite x).float? = some x

end Binary64

/-! ## Values that are given back -/

namespace Numeral

theorem value?_ofInt (i : Int64) : (ofInt i.toInt).value? = some (.int i) := by
  have hlow : -2 ^ 63 ≤ i.toInt := Int64.le_toInt i
  have hhigh : i.toInt < 2 ^ 63 := Int64.toInt_lt i
  have hbound : Decimal.integerBound = 2 ^ 63 := rfl
  show (if decide (i.toInt < 0) = true then _ else _) = _
  split
  · next hneg =>
    have hneg : i.toInt < 0 := of_decide_eq_true hneg
    have hwhole : i.toInt.natAbs ≠ 0 ∧ i.toInt.natAbs ≤ Decimal.integerBound := by omega
    have hback : -(i.toInt.natAbs : Int) = i.toInt := by omega
    show (if i.toInt.natAbs ≠ 0 ∧ i.toInt.natAbs ≤ Decimal.integerBound then
      some (Value.int (Int64.ofInt (-(i.toInt.natAbs : Int)))) else _) = _
    rw [if_pos hwhole, hback, Int64.ofInt_toInt]
  · next hneg =>
    have hneg : ¬i.toInt < 0 := fun h => hneg (decide_eq_true h)
    have hwhole : i.toInt.natAbs < Decimal.integerBound := by omega
    have hback : (i.toInt.natAbs : Int) = i.toInt := by omega
    show (if i.toInt.natAbs < Decimal.integerBound then
      some (Value.int (Int64.ofInt (i.toInt.natAbs : Int))) else _) = _
    rw [if_pos hwhole, hback, Int64.ofInt_toInt]

theorem count?_ofInt (n : Nat) : (ofInt n).count? = some n := by
  have hneg : decide ((n : Int) < 0) = false := decide_eq_false (by omega)
  simp [count?, ofInt, isWhole, hneg]

end Numeral

namespace JsonScalar

/-- The scalar that a value is written as stands for this value. -/
def GivesBack (v : Value) : Prop := (ofValue v).value? = some v

theorem givesBack_of_not_float {v : Value} (h : ∀ x, v ≠ .float x) : GivesBack v := by
  cases v with
  | null => rfl
  | bool b => rfl
  | int i => exact Numeral.value?_ofInt i
  | float x => exact absurd rfl (h x)
  | str s => rfl

/-- A finite number is given back when its numeral is read as this number: the numeral is
never taken for an integer. -/
theorem givesBack_float_iff {x : Binary64} (hfinite : x.isFinite = true) :
    GivesBack (.float x) ↔ x.IsReread := by
  rw [GivesBack, ofValue, if_pos hfinite, Binary64.IsReread]
  simp [value?, Numeral.value?, Binary64.Layout.isWhole_ofFinite_document]

theorem givesBack_of_floats {values : List Value} (hfinite : ∀ v ∈ values, v.isFinite = true)
    (h : ∀ x, Value.float x ∈ values → x.IsReread) : ∀ v ∈ values, GivesBack v := by
  intro v hv
  cases v with
  | float x => exact (givesBack_float_iff (hfinite _ hv)).2 (h x hv)
  | _ => exact givesBack_of_not_float nofun

/-- JSON gives back texts, truth values and counts, and the values that
it gives back at all. -/
theorem rereads_ofDatum : Rereads ofDatum GivesBack where
  text _ := rfl
  bool _ := rfl
  count n := Numeral.count?_ofInt n
  value _ h := h
  text_present _ := rfl
  count_present _ := rfl

end JsonScalar

/-! ## Numbers that are read -/

namespace Numeral

open Binary64

theorem le_exponentField_powerOfTen (k : Nat) : 1023 ≤ (powerOfTen k).exponentField :=
  le_exponentField_nearest false one_pos (Nat.one_le_pow k 10 (by decide))

/-- Scaling a number of moderate size gives a finite number or none. The induction is on the
rounds; every division may take the number past one more power of two. -/
theorem isFinite_of_scale : ∀ (rounds : Nat) {x y : Binary64} {e : Int} {j : Nat},
    x.exponentField ≤ 1023 + j → j + rounds ≤ 1023 → scale rounds x e = some y →
      y.isFinite = true
  | 0, x, y, e, j, hx, hj, h => by
    cases h
    exact isFinite_of_exponentField_lt (by omega)
  | rounds + 1, x, y, e, j, hx, hj, h => by
    have hdiv (k : Nat) := exponentField_divMagnitude_le hx (le_exponentField_powerOfTen k)
    rw [scale] at h
    split at h
    · split at h
      · cases h
        exact isFinite_of_exponentField_lt (by have := hdiv e.natAbs; omega)
      · next hsign =>
        dsimp only at h
        split at h
        · exact nomatch h
        · next hfinite =>
          cases h
          exact isFinite_mulMagnitude (Bool.eq_false_iff.2 hfinite)
    · split at h
      · cases h
        exact isFinite_of_exponentField_lt (by omega)
      · split at h
        · exact isFinite_of_scale rounds (hdiv 308) (by omega) h
        · exact nomatch h

theorem gather_lt {n : Nat} (ds : List Nat) (h : n < Decimal.wordBound) :
    (gather n ds).1 < Decimal.wordBound := by
  induction ds generalizing n with
  | nil => exact h
  | cons d ds ih =>
    rw [gather]
    split
    · exact h
    · next hfits => exact ih (Nat.lt_of_not_le hfits)

theorem gathered_lt (n : Numeral) : n.gathered.1 < Decimal.wordBound :=
  gather_lt _ (gather_lt _ (by decide))

theorem isFinite_of_float? {n : Numeral} {x : Binary64} (h : n.float? = some x) :
    x.isFinite = true := by
  have hsize : (Binary64.ofInt n.gathered.1).exponentField ≤ 1023 + 64 := by
    refine exponentField_nearest_le _ one_pos ?_
    rw [one_mul]
    exact gathered_lt n
  have hscale {e : Int} {y : Binary64}
      (hy : scale 4 (Binary64.ofInt n.gathered.1) e = some y) : y.isFinite = true :=
    isFinite_of_scale 4 hsize (by decide) hy
  unfold float? at h
  dsimp only at h
  obtain ⟨y, hy, rfl⟩ := Option.map_eq_some_iff.1 h
  have hfinite : y.isFinite = true := by
    split at hy
    · exact hscale hy
    · split at hy
      · split at hy
        · exact nomatch hy
        · cases hy
          decide
      · exact hscale hy
  split
  · exact neg_isFinite hfinite
  · exact hfinite

end Numeral

/-- No NaN and no infinity is read from a document. -/
theorem JsonScalar.isFinite_of_value? {s : JsonScalar} {v : Value} (h : s.value? = some v) :
    v.isFinite = true := by
  have hfloat {n : Numeral} (h : n.float?.map Value.float = some v) : v.isFinite = true := by
    obtain ⟨x, hx, rfl⟩ := Option.map_eq_some_iff.1 h
    exact Numeral.isFinite_of_float? hx
  cases s with
  | null =>
    cases h
    rfl
  | bool b =>
    cases h
    rfl
  | text t =>
    obtain ⟨s, -, rfl⟩ := Option.map_eq_some_iff.1 h
    rfl
  | number n =>
    have hn : n.value? = some v := h
    unfold Numeral.value? at hn
    split at hn
    · split at hn
      all_goals
        split at hn
        · cases hn
          rfl
        · exact hfloat hn
    · exact hfloat hn

end FabricFootprint
