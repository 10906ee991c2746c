import FabricFootprint.Diff

/-!
FabricFootprint.Proofs.Diff.Entry — the differences of one key.

* `hasChanges_diff_eq_false_iff`, `hasChanges_diff_iff` — there is a difference exactly when
  some field reads differently on the two sides.
-/

namespace FabricFootprint

/-- The data of the two sides differ as maps. -/
def DataDiffer (desired observed : Record) : Prop :=
  ∃ field, desired.get? field ≠ observed.get? field

theorem hasChanges_diff_eq_false_iff {key : String} {desired observed : Record} :
    (diff key desired observed).hasChanges = false ↔
      ∀ field, desired.get? field = observed.get? field := by
  simp only [DiffEntry.hasChanges, Bool.not_eq_false', Bool.and_eq_true, FieldMap.isEmpty_iff,
    get?_toChange, get?_toAdd, get?_toDelete]
  constructor
  · rintro ⟨⟨hchange, hadd⟩, hdelete⟩ field
    have hc := hchange field
    have ha := hadd field
    have hd := hdelete field
    cases hwant : desired.get? field <;> cases hfound : observed.get? field <;>
      simp_all [eq_comm]
  · intro h
    refine ⟨⟨fun field => ?_, fun field => ?_⟩, fun field => ?_⟩
    · rw [if_pos (.inr (h field).symm)]
    · rw [h field]
      split <;> simp_all
    · rw [h field]
      split <;> simp_all

theorem hasChanges_diff_iff {key : String} {desired observed : Record} :
    (diff key desired observed).hasChanges = true ↔ DataDiffer desired observed := by
  rw [← Bool.not_eq_false, hasChanges_diff_eq_false_iff, DataDiffer, Classical.not_forall]

end FabricFootprint
