import FabricFootprint.Proofs.Assembly.Report
import FabricFootprint.Proofs.Extraction.Issues
import FabricFootprint.Proofs.Extraction.Reach

/-!
FabricFootprint.Proofs.Assembly.Diagnostics — which of the issues that
rules raise a report keeps.

* `Raises` — a rule that a run reaches raises an issue, whatever becomes of the run later.
* `mem_issues_iff` — a run that gets through has kept every issue that was raised in it.
* `mem_diagnostics_iff` — a report keeps the issues of the extractions that
  succeed, and no others.
* `diagnostics_miss_issue` — so an issue is lost when a later rule ends the run.
-/

namespace FabricFootprint

/-- The rule at a position, reached by a run from the beginning, raises an issue. Whether the
run gets past the rules after it does not matter. -/
def Raises (context : RunContext) (rules : List Rule) (i : Nat) (issue : Incident) : Prop :=
  ∃ rule p records, rules[i]? = some rule ∧ Reaches context rules i p ∧
    rule.candidates context i p.data = .ok (records, some issue)

/-! ## One run -/

/-- With one more rule, what was raised before is joined by what the rule raises. -/
theorem exists_raises_concat_iff {context : RunContext} {before : List Rule} {rule : Rule}
    {p : Progress} (h : Extraction.run context 0 before Progress.start = .ok p)
    {issue : Incident} :
    (∃ i, Raises context (before ++ [rule]) i issue) ↔
      (∃ i, Raises context before i issue) ∨
        ∃ records,
          rule.candidates context before.length p.data = .ok (records, some issue) := by
  have hreached := exists_reaches_concat_iff h rule (P := fun i other q =>
    ∃ records, other.candidates context i q.data = .ok (records, some issue))
  simpa only [Raises, exists_and_left] using hreached

/-- A run that gets through has kept every issue that was raised in it, and nothing else. -/
theorem mem_issues_iff {context : RunContext} {rules : List Rule} {p : Progress}
    {issue : Incident} (h : Extraction.run context 0 rules Progress.start = .ok p) :
    issue ∈ p.issues ↔ ∃ i, Raises context rules i issue := by
  refine Extraction.run_induction (motive := fun rules p =>
    issue ∈ p.issues ↔ ∃ i, Raises context rules i issue) ?start ?step h
  case start => simp [Progress.start, Raises]
  case step =>
    intro before rule p q hrun hstep ih
    obtain ⟨records, raised, hfound, rfl⟩ := Progress.step_eq_ok hstep
    rw [exists_raises_concat_iff hrun, ← ih, Progress.issues_absorb,
      Progress.issues_withIssue?, List.mem_append, hfound, Option.mem_toList]
    simp

/-! ## Batches -/

theorem mem_reportedIssues_iff {key : String} {device : DeviceChunks} {rules : RuleSet}
    {registry : ConversionRegistry} {issue : Incident} :
    issue ∈ reportedIssues (extract key device rules registry) ↔
      (∃ x, extract key device rules registry = .ok x) ∧
        ∃ i, Raises ⟨key, device, registry⟩ rules.rules i issue := by
  cases hx : extract key device rules registry with
  | error e => simp [reportedIssues]
  | ok x =>
    obtain ⟨p, hreach, rfl⟩ := extract_eq_ok_iff.1 hx
    simp only [reportedIssues, Except.ok.injEq, exists_eq', true_and]
    exact mem_issues_iff (reaches_length_iff.1 hreach)

/-- A report keeps exactly the issues that rules raise in extractions that succeed; a request
keeps those of its batch. -/
theorem mem_diagnostics_iff (store : ChunkStore) (keys : List String) (rules : RuleSet)
    (registry : ConversionRegistry) :
    (∀ d, d ∈ (assemble store keys rules registry).report.diagnostics ↔
      ∃ device ∈ store.devices, ∃ key ∈ keys,
        (∃ x, extract key device rules registry = .ok x) ∧
          ∃ i issue, Raises ⟨key, device, registry⟩ rules.rules i issue ∧
            Diagnostic.ofIncident issue = d) ∧
    ∀ (run : RunId) (service : CompiledService),
      (process run service store keys registry).report.diagnostics =
        (assemble store keys service.rules registry).report.diagnostics := by
  refine ⟨fun d => ?_, fun _ _ => rfl⟩
  rw [report_diagnostics, List.mem_flatMap]
  refine exists_congr fun device => and_congr_right fun _ => ?_
  rw [List.mem_flatMap]
  refine exists_congr fun key => and_congr_right fun _ => ?_
  simp only [List.mem_map, mem_reportedIssues_iff]
  constructor
  · rintro ⟨issue, ⟨hx, i, hraises⟩, rfl⟩
    exact ⟨hx, i, issue, hraises, rfl⟩
  · rintro ⟨hx, i, issue, hraises, rfl⟩
    exact ⟨issue, ⟨hx, i, hraises⟩, rfl⟩

/-- The first rule passes over a mistyped record and goes on with the next one, whose
field the second rule cannot convert. The report lists the failure, and nothing of what
the first rule has raised. -/
theorem diagnostics_miss_issue :
    let domain : Rule :=
      { (default : Rule) with chunk := "domains", destName := "id", commonKeys := ["vlan"] }
    let group : Rule :=
      { (default : Rule) with
        chunk := "groups", sourceName := "vlan", sourceType := some .string
        destName := "vlan", destType := some .integer, linkage := .indirect }
    let mistyped : Record := FieldMap.ofList [("id", .int 100)]
    let web : Record := FieldMap.ofList [("id", .str "100"), ("vlan", .str "7")]
    let leaf : DeviceChunks := ⟨"leaf-1", FieldMap.ofList [("domains", [mistyped, web])]⟩
    let service : CompiledService :=
      { (default : CompiledService) with rules := ⟨[domain, group]⟩ }
    RuleSet.ofRules .standard none [domain, group] = .ok ⟨[domain, group]⟩ ∧
      (∃ issue, Raises ⟨"100", leaf, .empty⟩ [domain, group] 0 issue ∧
        issue.kind = .typeMismatch ∧
        Diagnostic.ofIncident issue ∉
          (assemble ⟨[leaf]⟩ ["100"] ⟨[domain, group]⟩ .empty).report.diagnostics ∧
        ∀ run, Diagnostic.ofIncident issue ∉
          (process run service ⟨[leaf]⟩ ["100"] .empty).report.diagnostics) ∧
      (assemble ⟨[leaf]⟩ ["100"] ⟨[domain, group]⟩ .empty).report.failures.map
        (fun f => (f.device, f.key, f.error.code, f.error.rule)) =
          [("leaf-1", "100", "ERR_UNREGISTERED_CONVERSION", some 1)] := by
  intro domain group mistyped web leaf service
  have raised : Raises ⟨"100", leaf, .empty⟩ [domain, group] 0
      (RunContext.mistypedIssue ⟨"100", leaf, .empty⟩ 0 domain (.str "100") "integer" 1) :=
    ⟨domain, Progress.start, [web], rfl, rfl, rfl⟩
  have empty : (assemble ⟨[leaf]⟩ ["100"] ⟨[domain, group]⟩ .empty).report.diagnostics = [] :=
    rfl
  refine ⟨rfl, ⟨_, raised, rfl, ?_, fun run => ?_⟩, rfl⟩
  · rw [empty]
    exact List.not_mem_nil
  · have same : (process run service ⟨[leaf]⟩ ["100"] .empty).report.diagnostics = [] := empty
    rw [same]
    exact List.not_mem_nil

end FabricFootprint
