import FabricFootprint.Classification

/-!
FabricFootprint.Proofs.Classification.Lead — the definition that takes the lead in a catalog.

* `Leads` — a position of a list of definitions scores more than every position before it, and
  no less than every position after it.
* `Leads.unique` — one position at most leads.
* `leadAfter_none` — the scan gives the definition at the leading position, and gives none
  exactly when no definition scores.
* `classify_eq_notExist_iff`, `classify_eq_notDefined_iff`, `classify_eq_defined_iff` — the
  three classifications of a bitmap.
* `Classification.ofText_text_of_free` — a classification with a name that is free to use is
  read back from its text.
-/

namespace FabricFootprint

/-! ## The leading position -/

/-- The definition at position `i` is the first one with the greatest score, which is `w`. -/
structure Leads (bitmap : Bitmap) (definitions : List ServiceTypeDefinition) (i : Nat)
    (best : ServiceTypeDefinition) (w : Nat) : Prop where
  position : definitions[i]? = some best
  score : best.score? bitmap = some w
  before : ∀ j other v, j < i → definitions[j]? = some other →
    other.score? bitmap = some v → v < w
  after : ∀ j other v, i < j → definitions[j]? = some other →
    other.score? bitmap = some v → v ≤ w

namespace Leads

variable {bitmap : Bitmap} {definition : ServiceTypeDefinition}
  {definitions rest : List ServiceTypeDefinition} {i j : Nat}
  {best other : ServiceTypeDefinition} {v w : Nat}

/-- No definition scores more than the leading one. -/
theorem score_le (h : Leads bitmap definitions i best w) (hget : definitions[j]? = some other)
    (hscore : other.score? bitmap = some v) : v ≤ w := by
  rcases Nat.lt_trichotomy j i with hlt | rfl | hgt
  · exact Nat.le_of_lt (h.before j other v hlt hget hscore)
  · obtain rfl : best = other := Option.some.inj (h.position.symm.trans hget)
    obtain rfl : w = v := Option.some.inj (h.score.symm.trans hscore)
    exact Nat.le_refl w
  · exact h.after j other v hgt hget hscore

/-- Two positions cannot both lead: the earlier one would score both more and no more. -/
theorem unique (h : Leads bitmap definitions i best w)
    (h' : Leads bitmap definitions j other v) :
    i = j ∧ best = other ∧ w = v := by
  rcases Nat.lt_trichotomy i j with hlt | rfl | hgt
  · have hmore := h'.before i best w hlt h.position h.score
    have hless := h.score_le h'.position h'.score
    omega
  · obtain rfl : best = other := Option.some.inj (h.position.symm.trans h'.position)
    exact ⟨rfl, rfl, Option.some.inj (h.score.symm.trans h'.score)⟩
  · have hmore := h.before j other v hgt h'.position h'.score
    have hless := h'.score_le h.position h.score
    omega

/-- The first definition leads when none after it scores more. -/
theorem head (hscore : definition.score? bitmap = some w)
    (hrest : ∀ other ∈ rest, ∀ v, other.score? bitmap = some v → v ≤ w) :
    Leads bitmap (definition :: rest) 0 definition w where
  position := rfl
  score := hscore
  before := by
    intro j other v hj
    exact absurd hj (Nat.not_lt_zero j)
  after := by
    intro j other v hj hget hv
    obtain ⟨k, rfl⟩ : ∃ k, j = k + 1 := ⟨j - 1, by omega⟩
    rw [List.getElem?_cons_succ] at hget
    exact hrest other (List.mem_of_getElem? hget) v hv

/-- A definition in front that scores less, or not at all, leaves the lead where it was. -/
theorem cons (h : Leads bitmap rest i best w)
    (hless : ∀ v, definition.score? bitmap = some v → v < w) :
    Leads bitmap (definition :: rest) (i + 1) best w where
  position := by rw [List.getElem?_cons_succ, h.position]
  score := h.score
  before := by
    intro j other v hj hget hv
    cases j with
    | zero =>
      cases hget
      exact hless v hv
    | succ j =>
      rw [List.getElem?_cons_succ] at hget
      exact h.before j other v (by omega) hget hv
  after := by
    intro j other v hj hget hv
    obtain ⟨k, rfl⟩ : ∃ k, j = k + 1 := ⟨j - 1, by omega⟩
    rw [List.getElem?_cons_succ] at hget
    exact h.after k other v (by omega) hget hv

end Leads

/-! ## The scan -/

/-- What the scan makes of a lead: it keeps the lead when no definition scores more, and gives
the leading definition otherwise. -/
theorem leadAfter_spec (bitmap : Bitmap) (definitions : List ServiceTypeDefinition)
    (lead : Option (ServiceTypeDefinition × Nat)) :
    (leadAfter bitmap lead definitions = lead ∧
      ∀ definition ∈ definitions, ∀ v, definition.score? bitmap = some v →
        ∃ l, lead = some l ∧ v ≤ l.2) ∨
    ∃ i best w, leadAfter bitmap lead definitions = some (best, w) ∧
      Leads bitmap definitions i best w ∧ ∀ l, lead = some l → l.2 < w := by
  induction definitions generalizing lead with
  | nil => exact .inl ⟨rfl, fun _ h => nomatch h⟩
  | cons definition rest ih =>
    rw [leadAfter]
    split
    · next hnone =>
      -- the definition does not qualify, so the scan of the rest decides
      obtain ⟨hkeep, hle⟩ | ⟨i, best, w, hlead, hleads, hmore⟩ := ih lead
      · refine .inl ⟨hkeep, fun other hother v hv => ?_⟩
        rcases List.mem_cons.1 hother with rfl | hother
        · rw [hnone] at hv
          exact nomatch hv
        · exact hle other hother v hv
      · refine .inr ⟨i + 1, best, w, hlead, hleads.cons fun v hv => ?_, hmore⟩
        rw [hnone] at hv
        exact nomatch hv
    · next score hscore =>
      split
      · next htakes =>
        have hover : ∀ l, lead = some l → l.2 < score := by
          rintro l rfl
          simpa using htakes
        obtain ⟨hkeep, hle⟩ | ⟨i, best, w, hlead, hleads, hmore⟩ :=
          ih (some (definition, score))
        · refine .inr ⟨0, definition, score, hkeep, Leads.head hscore ?_, hover⟩
          intro other hother v hv
          obtain ⟨l, hl, hvl⟩ := hle other hother v hv
          cases hl
          exact hvl
        · have hbeaten : score < w := hmore (definition, score) rfl
          refine .inr ⟨i + 1, best, w, hlead, hleads.cons fun v hv => ?_, fun l hl => ?_⟩
          · rw [hscore] at hv
            cases hv
            exact hbeaten
          · exact Nat.lt_trans (hover l hl) hbeaten
      · next hloses =>
        -- a lead is held already, and it scores no less than the definition
        obtain ⟨l, rfl, hl⟩ : ∃ l, lead = some l ∧ score ≤ l.2 := by
          cases lead with
          | none => simp at hloses
          | some l => exact ⟨l, rfl, by simpa using hloses⟩
        obtain ⟨hkeep, hle⟩ | ⟨i, best, w, hlead, hleads, hmore⟩ := ih (some l)
        · refine .inl ⟨hkeep, fun other hother v hv => ?_⟩
          rcases List.mem_cons.1 hother with rfl | hother
          · rw [hscore] at hv
            cases hv
            exact ⟨l, rfl, hl⟩
          · exact hle other hother v hv
        · refine .inr ⟨i + 1, best, w, hlead, hleads.cons fun v hv => ?_, hmore⟩
          rw [hscore] at hv
          cases hv
          exact Nat.lt_of_le_of_lt hl (hmore l rfl)

/-- A whole scan gives the leading definition, or none when no definition scores. -/
theorem leadAfter_none (bitmap : Bitmap) (definitions : List ServiceTypeDefinition) :
    (leadAfter bitmap none definitions = none ∧
      ∀ definition ∈ definitions, definition.score? bitmap = none) ∨
    ∃ i best w, leadAfter bitmap none definitions = some (best, w) ∧
      Leads bitmap definitions i best w := by
  obtain ⟨hnone, hle⟩ | ⟨i, best, w, hlead, hleads, -⟩ :=
    leadAfter_spec bitmap definitions none
  · refine .inl ⟨hnone, fun definition hmem => ?_⟩
    cases hscore : definition.score? bitmap with
    | none => rfl
    | some v =>
      obtain ⟨l, hl, -⟩ := hle definition hmem v hscore
      exact nomatch hl
  · exact .inr ⟨i, best, w, hlead, hleads⟩

/-! ## Classifications -/

section Classify

variable {bitmap : Bitmap} {catalog : ServiceTypeCatalog}

theorem classify_of_all_false (h : ∀ b ∈ bitmap, b.value = false) :
    classify bitmap catalog = .notExist := by
  rw [classify, if_pos (by simpa using h)]

theorem classify_of_true_bit {b : ComponentBit} (hmem : b ∈ bitmap) (hb : b.value = true) :
    classify bitmap catalog =
      (leadAfter bitmap none catalog.definitions).elim .notDefined fun l =>
        .defined l.1.name := by
  have hsome : ¬ (bitmap.all fun b => !b.value) = true := by
    intro hall
    have hfalse := List.all_eq_true.1 hall b hmem
    rw [hb] at hfalse
    exact nomatch hfalse
  rw [classify, if_neg hsome]
  cases leadAfter bitmap none catalog.definitions <;> rfl

/-- A bitmap is all false, or has a true bit. -/
theorem all_false_or_true_bit (bitmap : Bitmap) :
    (∀ b ∈ bitmap, b.value = false) ∨ ∃ b ∈ bitmap, b.value = true := by
  by_cases h : ∃ b ∈ bitmap, b.value = true
  · exact .inr h
  · refine .inl fun b hb => ?_
    exact Bool.eq_false_iff.2 fun htrue => h ⟨b, hb, htrue⟩

/-- A bitmap is no service at all exactly when no bit is true, whatever the catalog. -/
theorem classify_eq_notExist_iff :
    classify bitmap catalog = .notExist ↔ ∀ b ∈ bitmap, b.value = false := by
  refine ⟨fun h => ?_, classify_of_all_false⟩
  obtain hall | ⟨b, hmem, hb⟩ := all_false_or_true_bit bitmap
  · exact hall
  · rw [classify_of_true_bit hmem hb] at h
    cases hlead : leadAfter bitmap none catalog.definitions <;> rw [hlead] at h <;>
      exact nomatch h

theorem classify_eq_notDefined_iff :
    classify bitmap catalog = .notDefined ↔
      (∃ b ∈ bitmap, b.value = true) ∧
        ∀ definition ∈ catalog.definitions, definition.score? bitmap = none := by
  obtain hall | ⟨b, hmem, hb⟩ := all_false_or_true_bit bitmap
  · rw [classify_of_all_false hall]
    refine ⟨?_, ?_⟩
    · exact fun h => nomatch h
    · intro hyp
      obtain ⟨⟨b, hmem, hb⟩, -⟩ := hyp
      rw [hall b hmem] at hb
      exact nomatch hb
  · rw [classify_of_true_bit hmem hb]
    obtain ⟨hnone, hall⟩ | ⟨i, best, w, hlead, hleads⟩ :=
      leadAfter_none bitmap catalog.definitions
    · rw [hnone]
      exact ⟨fun _ => ⟨⟨b, hmem, hb⟩, hall⟩, fun _ => rfl⟩
    · rw [hlead]
      refine ⟨fun h => (nomatch h), fun ⟨_, hall⟩ => ?_⟩
      have hscore := hall best (List.mem_of_getElem? hleads.position)
      rw [hleads.score] at hscore
      exact nomatch hscore

theorem classify_eq_defined_iff {name : String} :
    classify bitmap catalog = .defined name ↔
      (∃ b ∈ bitmap, b.value = true) ∧
        ∃ i best w, Leads bitmap catalog.definitions i best w ∧ best.name = name := by
  obtain hall | ⟨b, hmem, hb⟩ := all_false_or_true_bit bitmap
  · rw [classify_of_all_false hall]
    refine ⟨?_, ?_⟩
    · exact fun h => nomatch h
    · intro hyp
      obtain ⟨⟨b, hmem, hb⟩, -⟩ := hyp
      rw [hall b hmem] at hb
      exact nomatch hb
  · rw [classify_of_true_bit hmem hb]
    obtain ⟨hnone, hall⟩ | ⟨i, best, w, hlead, hleads⟩ :=
      leadAfter_none bitmap catalog.definitions
    · rw [hnone]
      refine ⟨fun h => (nomatch h), fun ⟨_, i, best, w, hleads, _⟩ => ?_⟩
      have hscore := hall best (List.mem_of_getElem? hleads.position)
      rw [hleads.score] at hscore
      exact nomatch hscore
    · rw [hlead]
      refine ⟨?_, ?_⟩
      · intro h
        cases h
        exact ⟨⟨b, hmem, hb⟩, i, best, w, hleads, rfl⟩
      · intro hyp
        obtain ⟨-, j, other, v, hother, rfl⟩ := hyp
        obtain ⟨-, rfl, -⟩ := hleads.unique hother
        rfl

end Classify

theorem Classification.ofText_text_of_free {result : Classification}
    (h : ∀ name, result = .defined name → name ≠ notExistText ∧ name ≠ notDefinedText) :
    ofText result.text = result := by
  cases result with
  | notExist => rfl
  | notDefined => rfl
  | defined name =>
    obtain ⟨hexist, hdefined⟩ := h name rfl
    rw [text, ofText, if_neg hexist, if_neg hdefined]

end FabricFootprint
