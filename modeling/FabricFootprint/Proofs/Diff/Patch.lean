import FabricFootprint.Extraction.Writes
import FabricFootprint.Proofs.Diff.Entry
import Mathlib.Data.List.Lattice

/-!
FabricFootprint.Proofs.Diff.Patch — the differences of one key as a patch of the observed
data.

* `withoutFields`, `withFields` — a record without some fields, and with the entries of
  another record. Each has one equation that says what it does to a look-up.
* `DiffEntry.applyTo` — the observed data without the fields to delete, and with
  those to add and to change.
* `DiffEntry.IsPatch` — what makes an entry the exact patch from observed to desired data.
* `isPatch_diff` — the differences are this patch, and they are turned
  round with the two sides.
-/

namespace FabricFootprint

/-! ## Records changed in several fields -/

/-- The record without some fields. -/
def withoutFields (data : Record) (fields : List String) : Record :=
  fields.foldl FieldMap.erase data

/-- The record with all entries of another one. -/
def withFields (data added : Record) : Record := applyWrites data added.entries

@[simp] theorem get?_withoutFields (data : Record) (fields : List String) (field : String) :
    (withoutFields data fields).get? field =
      if field ∈ fields then none else data.get? field := by
  unfold withoutFields
  induction fields generalizing data with
  | nil => simp
  | cons first rest ih =>
    rw [List.foldl_cons, ih, FieldMap.get?_erase]
    by_cases hfirst : field = first <;> simp [hfirst]

theorem lastWrite?_eq_lookupEntry (writes : List Write) (field : String) :
    lastWrite? writes field = lookupEntry field writes.reverse := by
  unfold lastWrite?
  induction writes.reverse with
  | nil => rfl
  | cons w rest ih =>
    by_cases hw : w.1 = field
    · simp [lookupEntry, hw]
    · simpa [lookupEntry, hw] using ih

@[simp] theorem get?_withFields (data added : Record) (field : String) :
    (withFields data added).get? field = (added.get? field).or (data.get? field) := by
  rw [withFields, get?_applyWrites, lastWrite?_eq_lookupEntry,
    lookupEntry_reverse added.sorted]
  rfl

/-! ## Patches -/

namespace DiffEntry

/-- The observed data without the fields to delete, and with those to add and to change. -/
def applyTo (entry : DiffEntry) (observed : Record) : Record :=
  withFields (withFields (withoutFields observed entry.toDelete.names) entry.toAdd)
    entry.toChange

/-- The entry turns the observed data into the desired data, and touches no other field on the
way than those that differ. -/
structure IsPatch (entry : DiffEntry) (desired observed : Record) : Prop where
  applied : entry.applyTo observed = desired
  add_change : List.Disjoint entry.toAdd.names entry.toChange.names
  add_delete : List.Disjoint entry.toAdd.names entry.toDelete.names
  change_delete : List.Disjoint entry.toChange.names entry.toDelete.names
  /-- The fields to add are those that only the desired data have, with their values. -/
  add : ∀ field v, entry.toAdd.get? field = some v ↔
    desired.get? field = some v ∧ observed.get? field = none
  /-- A field to change has its desired value, and another one in the observed data. -/
  change : ∀ field v, entry.toChange.get? field = some v ↔
    desired.get? field = some v ∧ ∃ found, observed.get? field = some found ∧ found ≠ v
  /-- The fields to delete are those that only the observed data have, with their values. -/
  delete : ∀ field v, entry.toDelete.get? field = some v ↔
    observed.get? field = some v ∧ desired.get? field = none
  /-- Floating-point values are compared by their patterns: a NaN is no change of itself, but
  one of the two zeros is a change of the other. -/
  floats : ∀ field x y, desired.get? field = some (.float x) →
    observed.get? field = some (.float y) →
    (field ∈ entry.toChange.names ↔ x.bits ≠ y.bits)
  /-- There is nothing to do exactly when the data are equal. -/
  unchanged : entry.hasChanges = false ↔ desired = observed

end DiffEntry

section Diff

variable {key : String} {desired observed : Record}

theorem get?_toAdd_eq_some_iff {field : String} {v : Value} :
    (diff key desired observed).toAdd.get? field = some v ↔
      desired.get? field = some v ∧ observed.get? field = none := by
  rw [get?_toAdd]
  cases observed.get? field <;> simp

theorem get?_toDelete_eq_some_iff {field : String} {v : Value} :
    (diff key desired observed).toDelete.get? field = some v ↔
      observed.get? field = some v ∧ desired.get? field = none := by
  rw [get?_toDelete]
  cases desired.get? field <;> simp

theorem get?_toChange_eq_some_iff {field : String} {v : Value} :
    (diff key desired observed).toChange.get? field = some v ↔
      desired.get? field = some v ∧ ∃ found, observed.get? field = some found ∧
        found ≠ v := by
  rw [get?_toChange]
  cases hfound : observed.get? field with
  | none => simp
  | some found =>
    cases hwant : desired.get? field with
    | none => simp
    | some want =>
      by_cases hsame : found = want
      · simp [hsame]
      · simp only [reduceCtorEq, false_or, Option.some.injEq, hsame, if_false]
        constructor
        · rintro rfl
          exact ⟨rfl, found, rfl, hsame⟩
        · rintro ⟨rfl, -⟩
          rfl

theorem mem_names_toAdd_iff {field : String} :
    field ∈ (diff key desired observed).toAdd.names ↔
    (∃ v, desired.get? field = some v) ∧ observed.get? field = none := by
  simp [FieldMap.mem_names_iff, get?_toAdd_eq_some_iff]

theorem mem_names_toDelete_iff {field : String} :
    field ∈ (diff key desired observed).toDelete.names ↔
      (∃ v, observed.get? field = some v) ∧ desired.get? field = none := by
  simp [FieldMap.mem_names_iff, get?_toDelete_eq_some_iff]

theorem mem_names_toChange_iff {field : String} :
    field ∈ (diff key desired observed).toChange.names ↔
      ∃ want found, desired.get? field = some want ∧ observed.get? field = some found ∧
        found ≠ want := by
  simp [FieldMap.mem_names_iff, get?_toChange_eq_some_iff]

/-- Every field reads as desired when the differences have been applied. -/
theorem applyTo_diff : (diff key desired observed).applyTo observed = desired := by
  refine FieldMap.ext_get? fun field => ?_
  rw [DiffEntry.applyTo, get?_withFields, get?_withFields, get?_withoutFields, get?_toAdd,
    get?_toChange]
  cases hwant : desired.get? field with
  | none =>
    cases hfound : observed.get? field <;> simp [mem_names_toDelete_iff, hwant, hfound]
  | some want =>
    cases hfound : observed.get? field with
    | none => simp
    | some found =>
      by_cases hsame : found = want <;> simp [mem_names_toDelete_iff, hwant, hsame]

/-- What one direction adds is what the other one deletes. -/
theorem toAdd_diff_eq_toDelete (key : String) (desired observed : Record) :
    (diff key observed desired).toAdd = (diff key desired observed).toDelete := by
  rw [diff_eq, diff_eq]

/-- The differences of two records are the patch from the observed to the desired one. With
the sides exchanged, what was to be added is to be deleted and the other way round, and the
same fields are to be changed. -/
theorem isPatch_diff (key : String) (desired observed : Record) :
    (diff key desired observed).IsPatch desired observed ∧
      (diff key observed desired).toAdd = (diff key desired observed).toDelete ∧
      (diff key observed desired).toDelete = (diff key desired observed).toAdd ∧
      ∀ field, field ∈ (diff key observed desired).toChange.names ↔
        field ∈ (diff key desired observed).toChange.names := by
  refine ⟨⟨applyTo_diff, ?add_change, ?add_delete, ?change_delete,
      fun _ _ => get?_toAdd_eq_some_iff, fun _ _ => get?_toChange_eq_some_iff,
      fun _ _ => get?_toDelete_eq_some_iff, ?floats, ?unchanged⟩,
    toAdd_diff_eq_toDelete _ _ _, (toAdd_diff_eq_toDelete _ _ _).symm, ?swapped⟩
  case add_change =>
    intro field hadd hchange
    obtain ⟨-, habsent⟩ := mem_names_toAdd_iff.1 hadd
    obtain ⟨-, found, -, hfound, -⟩ := mem_names_toChange_iff.1 hchange
    simp [habsent] at hfound
  case add_delete =>
    intro field hadd hdelete
    obtain ⟨-, habsent⟩ := mem_names_toAdd_iff.1 hadd
    obtain ⟨⟨v, hv⟩, -⟩ := mem_names_toDelete_iff.1 hdelete
    simp [habsent] at hv
  case change_delete =>
    intro field hchange hdelete
    obtain ⟨want, -, hwant, -, -⟩ := mem_names_toChange_iff.1 hchange
    obtain ⟨-, habsent⟩ := mem_names_toDelete_iff.1 hdelete
    simp [habsent] at hwant
  case floats =>
    intro field x y hx hy
    have hbits : y = x ↔ x.bits = y.bits := by rw [Binary64.mk.injEq, eq_comm]
    simp [mem_names_toChange_iff, hx, hy, hbits]
  case unchanged =>
    rw [hasChanges_diff_eq_false_iff]
    exact ⟨FieldMap.ext_get?, fun h field => by rw [h]⟩
  case swapped =>
    intro field
    rw [mem_names_toChange_iff, mem_names_toChange_iff]
    constructor
    · rintro ⟨want, found, hwant, hfound, hne⟩
      exact ⟨found, want, hfound, hwant, hne.symm⟩
    · rintro ⟨want, found, hwant, hfound, hne⟩
      exact ⟨found, want, hfound, hwant, hne.symm⟩

end Diff

end FabricFootprint
