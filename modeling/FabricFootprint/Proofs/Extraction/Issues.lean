import FabricFootprint.Proofs.Extraction.Step

/-!
FabricFootprint.Proofs.Extraction.Issues — the issues that a run raises.

* `RunContext.IsIssue` — an issue is labelled with the operation, device, key and rule it
  happened at, and is a matter of data.
* `Progress.step_issues` — a rule raises one issue at most, and only in its match step.
* `Extraction.run_issues` — the issues of a run come in the order of their rules.
-/

namespace FabricFootprint

/-- An issue of the rule at a position of a run. -/
structure RunContext.IsIssue (context : RunContext) (index : Nat) (issue : Incident) :
    Prop where
  operation : issue.operation = some "extract"
  device : issue.device = some context.device.name
  key : issue.key = some context.key
  rule : issue.rule = some index
  kind : issue.kind = .typeMismatch ∨ issue.kind = .conversionFailed

/-- A report comes before another when its rule does. -/
def Incident.Before (a b : Incident) : Prop :=
  ∃ i j, a.rule = some i ∧ b.rule = some j ∧ i < j

/-! ## One rule -/

namespace RunContext

theorem isIssue_locate {context : RunContext} {index : Nat} {e : Incident}
    (h : e.kind = .typeMismatch ∨ e.kind = .conversionFailed) :
    context.IsIssue index (context.locate index e) :=
  ⟨rfl, rfl, rfl, rfl, h⟩

end RunContext

namespace Rule

/-- A converter refuses a seed with a failure of its own. -/
theorem failed_of_convertSeed_eq_refused {registry : ConversionRegistry} {rule : Rule}
    {raw : Value} {fault : ConversionFault}
    (h : rule.convertSeed registry raw = .refused fault) :
    ∃ source target text reason, fault = .failed source target text reason := by
  unfold convertSeed at h
  split at h
  · exact nomatch h
  · split at h
    · exact nomatch h
    · exact nomatch h
    · next source target text reason _ =>
      injection h with h
      exact ⟨source, target, text, reason, h.symm⟩

theorem kind_of_seed_eq_refused {registry : ConversionRegistry} {key : String} {data : Record}
    {rule : Rule} {fault : ConversionFault} (h : rule.seed registry key data = .refused fault)
    (index : Nat) : (fault.atRule index).kind = .conversionFailed := by
  unfold seed at h
  split at h
  · exact nomatch h
  · obtain ⟨source, target, text, reason, rfl⟩ := failed_of_convertSeed_eq_refused h
    rfl

theorem isIssue_of_selectWithIssue {context : RunContext} {index : Nat} {rule : Rule}
    {seed : Value} {chunk records : List Record} {issue : Incident}
    (h : rule.selectWithIssue context index seed chunk = (records, some issue)) :
    context.IsIssue index issue := by
  rw [selectWithIssue_eq] at h
  split at h
  · injection h with _ h
    injection h with h
    rw [← h]
    exact RunContext.isIssue_locate (.inl rfl)
  · injection h with _ h
    split at h
    · exact nomatch h
    · injection h with h
      rw [← h]
      exact RunContext.isIssue_locate (.inl rfl)

/-- The issue that a rule raises on the way to its candidates belongs to its match step. -/
theorem isIssue_of_candidates {context : RunContext} {index : Nat} {rule : Rule}
    {data : Record} {records : List Record} {issue : Incident}
    (h : rule.candidates context index data = .ok (records, some issue)) :
    rule.hasMatchStep = true ∧ context.IsIssue index issue := by
  unfold candidates at h
  by_cases hmatch : rule.hasMatchStep = true
  · refine ⟨hmatch, ?_⟩
    rw [if_pos hmatch] at h
    split at h
    · exact nomatch h
    · next seed _ =>
      injection h with h
      exact isIssue_of_selectWithIssue h
    · next fault hseed =>
      injection h with h
      injection h with _ h
      injection h with h
      rw [← h]
      exact RunContext.isIssue_locate (.inr (kind_of_seed_eq_refused hseed index))
    · exact nomatch h
  · rw [if_neg hmatch] at h
    exact nomatch h

end Rule

/-- A rule adds one issue at most, and only in its match step. -/
theorem Progress.step_issues {p q : Progress} {context : RunContext} {index : Nat}
    {rule : Rule} (h : p.step context index rule = .ok q) :
    ∃ raised : Option Incident, q.issues = p.issues ++ raised.toList ∧
      ∀ issue ∈ raised, rule.hasMatchStep = true ∧ context.IsIssue index issue := by
  obtain ⟨records, raised, hfound, rfl⟩ := step_eq_ok h
  refine ⟨raised, ?_, ?_⟩
  · rw [issues_absorb, issues_withIssue?]
  · intro issue hissue
    cases hissue
    exact Rule.isIssue_of_candidates hfound

/-! ## Whole runs -/

namespace Extraction

/-- A run adds issues of its rules, in the order of the rules. The induction is on the rules;
the position and the progress vary with it. -/
theorem run_issues {context : RunContext} {rules : List Rule} {index : Nat} {p q : Progress}
    (h : run context index rules p = .ok q) :
    ∃ raised, q.issues = p.issues ++ raised ∧
      (∀ issue ∈ raised, ∃ i rule, rules[i]? = some rule ∧ rule.hasMatchStep = true ∧
        context.IsIssue (index + i) issue) ∧
      raised.Pairwise Incident.Before := by
  induction rules generalizing index p with
  | nil =>
    injection h with h
    exact ⟨[], by simp [h], by simp, List.Pairwise.nil⟩
  | cons rule rest ih =>
    unfold run at h
    split at h
    · exact nomatch h
    · next r hstep =>
      obtain ⟨first, hfirst, hlabelled⟩ := Progress.step_issues hstep
      obtain ⟨later, hlater, hrules, hordered⟩ := ih h
      refine ⟨first.toList ++ later, ?_, ?_, ?_⟩
      · rw [hlater, hfirst, List.append_assoc]
      · intro issue hissue
        rcases List.mem_append.1 hissue with hissue | hissue
        · exact ⟨0, rule, rfl, hlabelled issue (Option.mem_toList.1 hissue)⟩
        · obtain ⟨i, other, hget, hmatch, his⟩ := hrules issue hissue
          have hpos : index + 1 + i = index + (i + 1) := by omega
          rw [hpos] at his
          exact ⟨i + 1, other, by simpa using hget, hmatch, his⟩
      · refine List.pairwise_append.2 ⟨by cases first <;> simp, hordered, ?_⟩
        intro a ha b hb
        obtain ⟨-, hisa⟩ := hlabelled a (Option.mem_toList.1 ha)
        obtain ⟨i, _, _, _, hisb⟩ := hrules b hb
        exact ⟨index, index + 1 + i, hisa.rule, hisb.rule, by omega⟩

/-- The issues that a run adds are labelled with positions of its rules. -/
theorem run_issues_positions {context : RunContext} {rules : List Rule} {index : Nat}
    {p q : Progress} (h : run context index rules p = .ok q) :
    ∃ raised, q.issues = p.issues ++ raised ∧
      ∀ e ∈ raised, ∃ j, e.rule = some j ∧ index ≤ j ∧ j < index + rules.length := by
  obtain ⟨raised, hraised, hrules, -⟩ := run_issues h
  refine ⟨raised, hraised, ?_⟩
  intro e he
  obtain ⟨i, rule, hget, -, hissue⟩ := hrules e he
  have hi := (List.getElem?_eq_some_iff.1 hget).1
  exact ⟨index + i, hissue.rule, by omega, by omega⟩

end Extraction

/-- The issues of a successful extraction belong to rules with a match step and come in the
order of these rules. -/
theorem extract_issues {key : String} {device : DeviceChunks} {rules : RuleSet}
    {registry : ConversionRegistry} {x : Extraction}
    (h : extract key device rules registry = .ok x) :
    (∀ issue ∈ x.issues, ∃ i rule, rules.rules[i]? = some rule ∧ rule.hasMatchStep = true ∧
      RunContext.IsIssue ⟨key, device, registry⟩ i issue) ∧
    x.issues.Pairwise Incident.Before := by
  unfold extract at h
  split at h
  · exact nomatch h
  · next p hrun =>
    injection h with h
    rw [← h]
    obtain ⟨raised, hraised, hrules, hordered⟩ := Extraction.run_issues hrun
    have heq : p.issues = raised := by simpa [Progress.start] using hraised
    simp only [Nat.zero_add] at hrules
    rw [heq]
    exact ⟨hrules, hordered⟩

end FabricFootprint
