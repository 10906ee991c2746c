import FabricFootprint.Proofs.Classification.Choice

/-!
FabricFootprint.Proofs.Classification.Monotone — what one more true component
does to a classification.

* `Bitmap.turnOn` — the bitmap with the bit at one position set to true. Only the first bit of
  a name counts, so this may change nothing that is read.
* `bit?_turnOn` — a name is read as before, or it is the name of that bit and is read as true.
* `score?_turnOn` — a definition that does not expect the component to be
  false scores what it did.
* `Picks` — the classification is that by the definition at a position, with its score.
* `picks_turnOn` — the score of the definition that is picked never falls.
-/

namespace FabricFootprint

/-! ## Bits -/

/-- The bitmap with the bit at position `k` set to true. -/
def Bitmap.turnOn (bitmap : Bitmap) (k : Nat) : Bitmap :=
  bitmap.modify k fun b => { b with value := true }

section TurnOn

variable {bitmap : Bitmap} {k : Nat} {b : ComponentBit}

theorem mem_turnOn (hk : bitmap[k]? = some b) : ⟨b.name, true⟩ ∈ bitmap.turnOn k := by
  refine List.mem_of_getElem? (i := k) ?_
  simp [Bitmap.turnOn, hk]

/-- The bit of every name is as before, except that the one set to true may
now be read as such. -/
theorem bit?_turnOn (hk : bitmap[k]? = some b) (name : String) :
    (bitmap.turnOn k).bit? name = bitmap.bit? name ∨
      b.name = name ∧ (bitmap.turnOn k).bit? name = some true := by
  induction bitmap generalizing k with
  | nil => simp at hk
  | cons first rest ih =>
    by_cases hfirst : first.name = name
    · -- the first bit of the name is in front, so a later one is not read
      cases k with
      | zero =>
        obtain rfl : first = b := by simpa using hk
        exact .inr ⟨hfirst, by simp [Bitmap.turnOn, Bitmap.bit?, hfirst]⟩
      | succ k => exact .inl (by simp [Bitmap.turnOn, Bitmap.bit?, hfirst])
    · cases k with
      | zero => exact .inl (by simp [Bitmap.turnOn, Bitmap.bit?, hfirst])
      | succ k =>
        have hrest := ih (by simpa using hk)
        simpa [Bitmap.turnOn, Bitmap.bit?, hfirst] using hrest

/-! ## Scores -/

variable {definition : ServiceTypeDefinition} {w : Nat}

/-- A definition that scores, and does not expect the component to be
false, scores the same. -/
theorem score?_turnOn (hk : bitmap[k]? = some b)
    (hwanted : definition.components.get? b.name ≠ some false)
    (hscore : definition.score? bitmap = some w) :
    definition.score? (bitmap.turnOn k) = some w := by
  rw [ServiceTypeDefinition.score?_eq_some_iff, ServiceTypeDefinition.qualifies_eq_true_iff]
    at *
  refine ⟨fun name expected hget => ?_, hscore.2⟩
  rcases bit?_turnOn hk name with hsame | ⟨rfl, htrue⟩
  · rw [hsame]
    exact hscore.1 name expected hget
  · cases expected with
    | false => exact absurd hget hwanted
    | true => exact htrue

/-- Some definition leads, with no less than what any one scores. -/
theorem exists_leads {bitmap : Bitmap} {definitions : List ServiceTypeDefinition}
    (hmem : definition ∈ definitions) (hscore : definition.score? bitmap = some w) :
    ∃ i best v, Leads bitmap definitions i best v ∧ w ≤ v := by
  obtain ⟨-, hnone⟩ | ⟨i, best, v, -, hleads⟩ := leadAfter_none bitmap definitions
  · rw [hnone definition hmem] at hscore
    exact nomatch hscore
  · obtain ⟨j, hget⟩ := List.getElem?_of_mem hmem
    exact ⟨i, best, v, hleads, hleads.score_le hget hscore⟩

end TurnOn

/-! ## Classifications -/

/-- The bitmap is classified by the definition at position `i`, which scores `w`. -/
structure Picks (bitmap : Bitmap) (catalog : ServiceTypeCatalog) (i : Nat)
    (best : ServiceTypeDefinition) (w : Nat) : Prop where
  classified : classify bitmap catalog = .defined best.name
  leads : Leads bitmap catalog.definitions i best w

/-- Setting a bit to true never lowers the score of a definition that does not expect the
component to be false. So in a catalog without such an expectation the definition that is
picked scores no less than the one before. A bitmap with a bit set to true is never classified
as no service, whatever the catalog. -/
theorem picks_turnOn {bitmap : Bitmap} {k : Nat} {b : ComponentBit}
    (hk : bitmap[k]? = some b) :
    (∀ definition : ServiceTypeDefinition, definition.components.get? b.name ≠ some false →
      ∀ w, definition.score? bitmap = some w →
        ∃ v, definition.score? (bitmap.turnOn k) = some v ∧ w ≤ v) ∧
    ∀ catalog : ServiceTypeCatalog,
      classify (bitmap.turnOn k) catalog ≠ .notExist ∧
      ((∀ definition ∈ catalog.definitions, definition.components.get? b.name ≠ some false) →
        ∀ i best w, Picks bitmap catalog i best w →
          ∃ j other v, Picks (bitmap.turnOn k) catalog j other v ∧ w ≤ v) := by
  have htrue : ∃ bit ∈ bitmap.turnOn k, bit.value = true := ⟨_, mem_turnOn hk, rfl⟩
  refine ⟨?_, fun catalog => ⟨?_, ?_⟩⟩
  · intro definition hwanted w hscore
    exact ⟨w, score?_turnOn hk hwanted hscore, Nat.le_refl w⟩
  · intro hnone
    obtain ⟨bit, hmem, hbit⟩ := htrue
    rw [classify_eq_notExist_iff.1 hnone bit hmem] at hbit
    exact nomatch hbit
  · intro hwanted i best w hpicks
    have hmem : best ∈ catalog.definitions := List.mem_of_getElem? hpicks.leads.position
    have hscore := score?_turnOn hk (hwanted best hmem) hpicks.leads.score
    obtain ⟨j, other, v, hleads, hle⟩ := exists_leads hmem hscore
    exact ⟨j, other, v,
      ⟨classify_eq_defined_iff.2 ⟨htrue, j, other, v, hleads, rfl⟩, hleads⟩, hle⟩

/-- A name that is there twice: setting its first bit changes which definition is picked. -/
theorem picks_turnOn_repeated :
    let bitmap : Bitmap := [⟨"L2VNI", false⟩, ⟨"L2VNI", true⟩, ⟨"IR", true⟩]
    let routed : ServiceTypeDefinition := ⟨"routed", FieldMap.ofList [("IR", true)]⟩
    let bridged : ServiceTypeDefinition :=
      ⟨"bridged", FieldMap.ofList [("IR", true), ("L2VNI", true)]⟩
    let catalog : ServiceTypeCatalog := ⟨"VNI", [routed, bridged]⟩
    bitmap[0]? = some ⟨"L2VNI", false⟩ ∧
      (∀ definition ∈ catalog.definitions, definition.components.get? "L2VNI" ≠ some false) ∧
      Picks bitmap catalog 0 routed 1 ∧
      (∃ j other v, Picks (bitmap.turnOn 0) catalog j other v ∧ 1 ≤ v) ∧
      classify (bitmap.turnOn 0) catalog = .defined "bridged" := by
  intro bitmap routed bridged catalog
  have hwanted : ∀ definition ∈ catalog.definitions,
      definition.components.get? "L2VNI" ≠ some false := by decide
  have hpicks : Picks bitmap catalog 0 routed 1 := by
    refine ⟨by decide, Leads.head (by decide) ?_⟩
    intro other hother v hv
    obtain rfl : other = bridged := by simpa using hother
    exact nomatch hv
  have hk : bitmap[0]? = some ⟨"L2VNI", false⟩ := rfl
  refine ⟨hk, hwanted, hpicks, ?_, by decide⟩
  exact ((picks_turnOn hk).2 catalog).2 hwanted 0 routed 1 hpicks

end FabricFootprint
