import FabricFootprint.Proofs.Classification.Lead

/-!
FabricFootprint.Proofs.Classification.Choice — which definition of a catalog a
bitmap is classified by.

Nothing is asked of the bitmap or of the catalog: names of bits and of definitions may repeat,
and a definition may name components that have no bit, or none at all.

* `Bitmap.FirstBit` — a bitmap has bits of a name, and the first of them has a given value.
* `score?_eq_some_iff_firstBit` — what a definition asks of the bitmap, bit by
  bit, and what it scores.
* `ServiceTypeCatalog.renamed` — the catalog with other names. The choice is made by position:
  a position is chosen when its name is given whatever the names are (`chosen_iff_leads`).
* `classify_firstBest` — the definition that is chosen is the first one
  with the greatest score.
-/

namespace FabricFootprint

/-! ## Scores -/

/-- The bitmap has bits of the name, and the first one of them has the value. -/
def Bitmap.FirstBit (bitmap : Bitmap) (name : String) (value : Bool) : Prop :=
  ∃ before after, bitmap = before ++ ⟨name, value⟩ :: after ∧ ∀ b ∈ before, b.name ≠ name

theorem bit?_eq_some_iff_firstBit {bitmap : Bitmap} {name : String} {value : Bool} :
    bitmap.bit? name = some value ↔ bitmap.FirstBit name value := by
  simp only [Bitmap.bit?, Option.map_eq_some_iff, List.find?_eq_some_iff_append]
  constructor
  · rintro ⟨⟨n, v⟩, ⟨hname, before, after, rfl, hbefore⟩, rfl⟩
    obtain rfl : n = name := by simpa using hname
    exact ⟨before, after, rfl, by simpa using hbefore⟩
  · rintro ⟨before, after, rfl, hbefore⟩
    exact ⟨⟨name, value⟩, ⟨by simp, before, after, rfl, by simpa using hbefore⟩, rfl⟩

/-- The weight counts the components that are expected to be true. -/
theorem weight_eq_count (definition : ServiceTypeDefinition) :
    definition.weight = definition.components.values.count true := by
  rw [ServiceTypeDefinition.weight, List.count_eq_length_filter]
  simp

theorem score?_eq_some_iff_firstBit {bitmap : Bitmap} {definition : ServiceTypeDefinition}
    {w : Nat} :
    definition.score? bitmap = some w ↔
      (∀ name expected, definition.components.get? name = some expected →
        bitmap.FirstBit name expected) ∧ definition.components.values.count true = w := by
  rw [ServiceTypeDefinition.score?_eq_some_iff, ServiceTypeDefinition.qualifies_eq_true_iff,
    weight_eq_count]
  simp only [bit?_eq_some_iff_firstBit]

/-! ## Positions -/

/-- The catalog with the definition at every position given another name. -/
def ServiceTypeCatalog.renamed (catalog : ServiceTypeCatalog) (names : Nat → String) :
    ServiceTypeCatalog :=
  { catalog with
    definitions := catalog.definitions.mapIdx fun i definition =>
      { definition with name := names i } }

section Positions

variable {bitmap : Bitmap} {catalog : ServiceTypeCatalog} {names : Nat → String} {i w : Nat}

theorem getElem?_renamed {best : ServiceTypeDefinition} :
    (catalog.renamed names).definitions[i]? = some best ↔
      ∃ definition, catalog.definitions[i]? = some definition ∧
        { definition with name := names i } = best := by
  simp [ServiceTypeCatalog.renamed, List.getElem?_mapIdx]

/-- Scores do not depend on names, so the same position leads. -/
theorem leads_renamed_iff {best : ServiceTypeDefinition} :
    Leads bitmap (catalog.renamed names).definitions i best w ↔
      ∃ definition, Leads bitmap catalog.definitions i definition w ∧
        { definition with name := names i } = best := by
  constructor
  · intro h
    obtain ⟨definition, hget, rfl⟩ := getElem?_renamed.1 h.position
    refine ⟨definition, ⟨hget, h.score, ?_, ?_⟩, rfl⟩
    · intro j other v hj hother hv
      exact h.before j _ v hj (getElem?_renamed.2 ⟨other, hother, rfl⟩) hv
    · intro j other v hj hother hv
      exact h.after j _ v hj (getElem?_renamed.2 ⟨other, hother, rfl⟩) hv
  · rintro ⟨definition, h, rfl⟩
    refine ⟨getElem?_renamed.2 ⟨definition, h.position, rfl⟩, h.score, ?_, ?_⟩
    · intro j other v hj hother hv
      obtain ⟨original, hget, rfl⟩ := getElem?_renamed.1 hother
      exact h.before j original v hj hget hv
    · intro j other v hj hother hv
      obtain ⟨original, hget, rfl⟩ := getElem?_renamed.1 hother
      exact h.after j original v hj hget hv

/-- A position is the one that is chosen, whatever the names are, exactly when it leads. -/
theorem chosen_iff_leads :
    (∀ names, classify bitmap (catalog.renamed names) = .defined (names i)) ↔
      (∃ b ∈ bitmap, b.value = true) ∧
      ∃ best w, Leads bitmap catalog.definitions i best w := by
  constructor
  · intro hchosen
    -- one name for position `i`, and another one for all other positions
    obtain ⟨htrue, j, best, w, hleads, hname⟩ :=
      classify_eq_defined_iff.1 (hchosen fun j => if j = i then "here" else "elsewhere")
    obtain ⟨definition, hdefinition, rfl⟩ := leads_renamed_iff.1 hleads
    obtain rfl : j = i := by
      by_cases hsame : j = i
      · exact hsame
      · simp [hsame] at hname
    exact ⟨htrue, definition, w, hdefinition⟩
  · rintro ⟨htrue, best, w, hleads⟩ names
    exact classify_eq_defined_iff.2
      ⟨htrue, i, { best with name := names i }, w,
        leads_renamed_iff.2 ⟨best, hleads, rfl⟩, rfl⟩

end Positions

/-! ## Choices -/

/-- A bitmap without a true bit is no service. Any other bitmap is classified by the
definition whose score is greater than all scores before it and no less than the scores after
it; it is not defined when no definition scores. A definition scores when the first bit of
every component that it names is as it expects, and its score is the number of components that
it expects to be true. -/
theorem classify_firstBest (bitmap : Bitmap) (catalog : ServiceTypeCatalog) :
    (classify bitmap catalog = .notExist ↔ ∀ b ∈ bitmap, b.value = false) ∧
    (∀ name, classify bitmap catalog = .defined name ↔
      (∃ b ∈ bitmap, b.value = true) ∧
        ∃ i best w, Leads bitmap catalog.definitions i best w ∧ best.name = name) ∧
    (∀ i, (∀ names, classify bitmap (catalog.renamed names) = .defined (names i)) ↔
      (∃ b ∈ bitmap, b.value = true) ∧ ∃ best w, Leads bitmap catalog.definitions i best w) ∧
    (classify bitmap catalog = .notDefined ↔
      (∃ b ∈ bitmap, b.value = true) ∧
        ∀ definition ∈ catalog.definitions, definition.score? bitmap = none) ∧
    ∀ (definition : ServiceTypeDefinition) (w : Nat), definition.score? bitmap = some w ↔
      (∀ name expected, definition.components.get? name = some expected →
        bitmap.FirstBit name expected) ∧ definition.components.values.count true = w :=
  ⟨classify_eq_notExist_iff, fun _ => classify_eq_defined_iff, fun _ => chosen_iff_leads,
    classify_eq_notDefined_iff, fun _ _ => score?_eq_some_iff_firstBit⟩

/-- A definition without components takes the lead with nothing to score, and one that comes
later does not take it away with as little. -/
example : classify [⟨"L2VNI", true⟩, ⟨"L2VNI", false⟩]
    ⟨"VNI", [⟨"absent", FieldMap.ofList [("IR", false)]⟩, ⟨"bare", ∅⟩, ⟨"plain", ∅⟩,
      ⟨"second", FieldMap.ofList [("L2VNI", false)]⟩]⟩ = .defined "bare" := by decide

end FabricFootprint
