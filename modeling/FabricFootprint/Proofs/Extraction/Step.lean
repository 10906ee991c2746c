import FabricFootprint.Extraction

/-!
FabricFootprint.Proofs.Extraction.Step — all that one rule can do to a run.

* `Rule.HasRawSeed` — the rule finds a seed to convert in the data written so far.
* `Rule.DeclaresUnregistered` — the declared conversion is missing from the registry.
* `Progress.step_eq_error_iff` — a rule ends the run exactly when both hold of its match step,
  and the fault names the pair. Whatever else goes wrong becomes an issue.
* `Progress.step_eq_ok` — otherwise the run absorbs the candidates of the rule, after the
  issue that was raised on the way to them.

Later modules reason about a step through these statements and never open
`Rule.candidates` again.
-/

namespace FabricFootprint

/-! ## Seeds -/

namespace Rule

/-- There is a seed to convert: the extraction key, or a field of the data that is
present and not null. -/
def HasRawSeed (rule : Rule) (data : Record) : Prop :=
  rule.linkage = .direct ∨
    rule.linkage = .indirect ∧ ∃ v, data.get? rule.sourceName = some v ∧ v ≠ .null

/-- The rule declares a conversion between two different types, and the registry has no
converter for this pair. -/
def DeclaresUnregistered (rule : Rule) (registry : ConversionRegistry)
    (source target : ValueType) : Prop :=
  rule.conversion? = some (source, target) ∧ source ≠ target ∧
    registry.converter? source target = none

theorem hasRawSeed_iff {rule : Rule} (key : String) {data : Record} :
    rule.HasRawSeed data ↔ ∃ raw, rule.rawSeed? key data = some raw := by
  cases h : rule.linkage with
  | direct => simp [HasRawSeed, rawSeed?, h]
  | indirect => simp [HasRawSeed, rawSeed?, h, Value.ofField?_eq_some_iff]
  | noLink => simp [HasRawSeed, rawSeed?, h]

end Rule

theorem ConversionRegistry.isRegistered_eq_false_iff {r : ConversionRegistry}
    {source target : ValueType} :
    r.isRegistered source target = false ↔
      source ≠ target ∧ r.converter? source target = none := by
  simp [isRegistered]

namespace Rule

theorem convertSeed_of_declaresUnregistered {registry : ConversionRegistry} {rule : Rule}
    {source target : ValueType} (h : rule.DeclaresUnregistered registry source target)
    (raw : Value) :
    rule.convertSeed registry raw = .unregistered (.unregistered source target) := by
  obtain ⟨hpair, hne, hnone⟩ := h
  simp [convertSeed, hpair, ConversionRegistry.convert, hne, hnone]

theorem declaresUnregistered_of_convertSeed {registry : ConversionRegistry} {rule : Rule}
    {raw : Value} {fault : ConversionFault}
    (h : rule.convertSeed registry raw = .unregistered fault) :
    ∃ source target, rule.DeclaresUnregistered registry source target ∧
      fault = .unregistered source target := by
  unfold convertSeed at h
  split at h
  · exact nomatch h
  · next source target hpair =>
    split at h
    · exact nomatch h
    · next a b hconvert =>
      obtain ⟨hlacks, rfl, rfl⟩ := ConversionRegistry.convert_unregistered_iff.1 hconvert
      have hmissing := ConversionRegistry.isRegistered_eq_false_iff.1 hlacks
      injection h with h
      exact ⟨a, b, ⟨hpair, hmissing⟩, h.symm⟩
    · exact nomatch h

theorem seed_eq_unregistered_iff {registry : ConversionRegistry} {key : String}
    {data : Record} {rule : Rule} {fault : ConversionFault} :
    rule.seed registry key data = .unregistered fault ↔
      rule.HasRawSeed data ∧
      ∃ source target, rule.DeclaresUnregistered registry source target ∧
        fault = .unregistered source target := by
  rw [hasRawSeed_iff key, seed]
  cases rule.rawSeed? key data with
  | none => simp
  | some raw =>
    simp only [Option.some.injEq, exists_eq', true_and]
    constructor
    · exact declaresUnregistered_of_convertSeed
    · intro hyp
      obtain ⟨source, target, hd, rfl⟩ := hyp
      exact convertSeed_of_declaresUnregistered hd raw

end Rule

/-! ## Steps -/

/-- The rule ends a run that has gathered `data`: its match step finds a seed for a conversion
that nobody registered. -/
def Rule.Stops (rule : Rule) (registry : ConversionRegistry) (data : Record)
    (source target : ValueType) : Prop :=
  rule.hasMatchStep = true ∧ rule.DeclaresUnregistered registry source target ∧
    rule.HasRawSeed data

theorem Rule.candidates_eq_error_iff (context : RunContext) {index : Nat} {rule : Rule}
    {data : Record} {fault : Fault} :
    rule.candidates context index data = .error fault ↔
      ∃ source target, rule.Stops context.registry data source target ∧
        fault = .unregisteredConversion index source target := by
  unfold Rule.candidates Rule.Stops
  by_cases hm : rule.hasMatchStep = true
  · have stops (f : ConversionFault) :
        rule.seed context.registry context.key data = .unregistered f ↔ _ :=
      seed_eq_unregistered_iff
    cases hs : rule.seed context.registry context.key data with
    | unregistered f =>
      obtain ⟨hraw, s, t, hd, rfl⟩ := (stops f).1 hs
      simp only [hm, ↓reduceIte, Except.error.injEq, true_and]
      constructor
      · rintro rfl
        exact ⟨s, t, ⟨hd, hraw⟩, rfl⟩
      · intro hyp
        obtain ⟨a, b, ⟨hab, -⟩, rfl⟩ := hyp
        cases hd.1.symm.trans hab.1
        rfl
    | _ =>
      simp only [hm, ↓reduceIte, reduceCtorEq, true_and, false_iff, not_exists]
      rintro a b ⟨⟨hd, hraw⟩, -⟩
      exact nomatch hs.symm.trans ((stops _).2 ⟨hraw, a, b, hd, rfl⟩)
  · simp [hm]

namespace Progress

/-- A rule ends the run exactly when its match step needs a conversion
that nobody registered. -/
theorem step_eq_error_iff {p : Progress} {context : RunContext} {index : Nat} {rule : Rule}
    {fault : Fault} :
    p.step context index rule = .error fault ↔
      ∃ source target, rule.Stops context.registry p.data source target ∧
        fault = .unregisteredConversion index source target := by
  rw [← Rule.candidates_eq_error_iff context, step]
  cases rule.candidates context index p.data with
  | error f => simp
  | ok found =>
    obtain ⟨records, issue⟩ := found
    cases issue <;> simp

/-- The run with the issue of a rule, when it raised one. -/
def withIssue? (p : Progress) : Option Incident → Progress
  | none => p
  | some issue => p.withIssue issue

/-- A step that does not end the run absorbs the candidates of its rule. -/
theorem step_eq_ok {p q : Progress} {context : RunContext} {index : Nat} {rule : Rule}
    (h : p.step context index rule = .ok q) :
    ∃ records issue, rule.candidates context index p.data = .ok (records, issue) ∧
      q = (p.withIssue? issue).absorb rule records := by
  unfold step at h
  cases hc : rule.candidates context index p.data with
  | error f => simp [hc] at h
  | ok found =>
    obtain ⟨records, issue⟩ := found
    refine ⟨records, issue, rfl, ?_⟩
    cases issue with
    | none => simpa [hc, withIssue?] using h.symm
    | some issue => simpa [hc, withIssue?] using h.symm

/-- Absorbing candidates raises no issue. -/
@[simp] theorem issues_absorb (p : Progress) (rule : Rule) (records : List Record) :
    (p.absorb rule records).issues = p.issues := by
  unfold absorb
  split <;> rfl

theorem issues_withIssue? (p : Progress) (issue : Option Incident) :
    (p.withIssue? issue).issues = p.issues ++ issue.toList := by
  cases issue <;> simp [withIssue?, withIssue]

end Progress

end FabricFootprint
