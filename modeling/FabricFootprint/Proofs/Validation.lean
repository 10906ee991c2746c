import FabricFootprint.Proofs.Assembly.Report
import FabricFootprint.Proofs.Extraction.Run
import FabricFootprint.Proofs.Rule.Acceptance

/-!
FabricFootprint.Proofs.Validation — the checks of a rule list cover every way a run can fail.

The checks walk the rules once, before any data is known; a run meets them again with the data
that earlier rules happened to write. `extract_fails_iff_stopsAt` ties the two together: a run
of an accepted list fails for one reason only, a conversion missing from the registry it runs
with, and never when that registry has all that the list was accepted with.
-/

namespace FabricFootprint

/-- A list that stops somewhere under a registry was accepted under one that has more. -/
theorem not_stopsAt_of_accepted {registry runRegistry : ConversionRegistry}
    {known : Option (List String)} {rules : List Rule} {set : RuleSet}
    (h : RuleSet.ofRules registry known rules = .ok set)
    (hregistered : ∀ source target, registry.isRegistered source target = true →
      runRegistry.isRegistered source target = true)
    {key : String} {device : DeviceChunks} {i : Nat} {source target : ValueType} :
    ¬ StopsAt ⟨key, device, runRegistry⟩ rules i source target := by
  intro hyp
  obtain ⟨rule, p, hget, -, hmatch, ⟨hpair, hne, hnone⟩, -⟩ := hyp
  have hload := RuleSet.isRegistered_of_accepted h hget hmatch hpair
  have hrun := hregistered source target hload
  have hlacks := ConversionRegistry.isRegistered_eq_false_iff.2 ⟨hne, hnone⟩
  rw [hrun] at hlacks
  exact nomatch hlacks

/-- A batch in which every extraction succeeds reports no failure. -/
theorem report_failures_eq_nil {store : ChunkStore} {keys : List String} {rules : RuleSet}
    {registry : ConversionRegistry}
    (h : ∀ device key, ∃ x, extract key device rules registry = .ok x) :
    (assemble store keys rules registry).report.failures = [] := by
  rw [report_failures, List.flatMap_eq_nil_iff]
  intro device _
  rw [List.filterMap_eq_nil_iff]
  intro key _
  obtain ⟨x, hx⟩ := h device key
  rw [hx]
  rfl

/-- An extraction under an accepted rule list fails exactly when its run stops somewhere.
The error then names the first such rule, and under a registry with all that the list was
accepted with there is no error at all, for any device and key: batches and whole
requests list no failure. -/
theorem extract_fails_iff_stopsAt {registry : ConversionRegistry}
    {known : Option (List String)} {rules : List Rule} {set : RuleSet}
    (h : RuleSet.ofRules registry known rules = .ok set) :
    (∀ (runRegistry : ConversionRegistry) (device : DeviceChunks) (key : String),
      ((∃ e, extract key device set runRegistry = .error e) ↔
        ∃ i source target, StopsAt ⟨key, device, runRegistry⟩ rules i source target) ∧
      ∀ e, extract key device set runRegistry = .error e →
        e.kind = .unregisteredConversion ∧ e.device = some device.name ∧ e.key = some key ∧
          ∃ i, e.rule = some i ∧
            (∃ source target, StopsAt ⟨key, device, runRegistry⟩ rules i source target) ∧
            ∀ j source target, StopsAt ⟨key, device, runRegistry⟩ rules j source target →
              i ≤ j) ∧
    ∀ runRegistry : ConversionRegistry,
      (∀ source target, registry.isRegistered source target = true →
        runRegistry.isRegistered source target = true) →
      (∀ device key, ∃ x, extract key device set runRegistry = .ok x) ∧
      (∀ store keys, (assemble store keys set runRegistry).report.failures = []) ∧
      ∀ run service store keys, service.rules = set →
        (process run service store keys runRegistry).report.failures = [] := by
  obtain ⟨rfl, -⟩ := RuleSet.ofRules_eq_ok_iff.1 h
  refine ⟨fun runRegistry device key => ⟨?_, fun e he => ?_⟩,
    fun runRegistry hregistered => ?_⟩
  · constructor
    · rintro ⟨e, he⟩
      obtain ⟨i, source, target, hstops, -⟩ := extract_eq_error_iff.1 he
      exact ⟨i, source, target, hstops⟩
    · intro hyp
      obtain ⟨i, source, target, hstops⟩ := hyp
      exact ⟨_, extract_eq_error_iff.2 ⟨i, source, target, hstops, rfl⟩⟩
  · obtain ⟨i, source, target, hstops, rfl⟩ := extract_eq_error_iff.1 he
    refine ⟨rfl, rfl, rfl, i, rfl, ⟨source, target, hstops⟩, fun j s t hj => ?_⟩
    exact Nat.le_of_eq (hstops.unique hj)
  · have succeeds (device : DeviceChunks) (key : String) :
        ∃ x, extract key device ⟨rules⟩ runRegistry = .ok x := by
      cases he : extract key device ⟨rules⟩ runRegistry with
      | ok x => exact ⟨x, rfl⟩
      | error e =>
        obtain ⟨i, source, target, hstops, -⟩ := extract_eq_error_iff.1 he
        exact absurd hstops (not_stopsAt_of_accepted h hregistered)
    refine ⟨succeeds, fun store keys => report_failures_eq_nil succeeds, ?_⟩
    intro run service store keys hservice
    show (assemble store keys service.rules runRegistry).report.failures = []
    rw [hservice]
    exact report_failures_eq_nil succeeds

/-- Two rules, the second converting a field that the first copies, are accepted with the
standard conversions. Without any conversion a device that has the field stops them at the
second rule; with the standard ones every device and key gets through. -/
theorem extract_fails_iff_stopsAt_group :
    let vlan : Rule :=
      { (default : Rule) with chunk := "domains", destName := "name", commonKeys := ["vlan"] }
    let group : Rule :=
      { (default : Rule) with
        chunk := "groups", sourceName := "vlan", sourceType := some .string, destName := "id"
        destType := some .integer, linkage := .indirect }
    let domain : Record := FieldMap.ofList [("name", .str "web"), ("vlan", .str "7")]
    let leaf : DeviceChunks := ⟨"leaf-1", FieldMap.ofList [("domains", [domain])]⟩
    RuleSet.ofRules .standard none [vlan, group] = .ok ⟨[vlan, group]⟩ ∧
      (∃ i source target, StopsAt ⟨"web", leaf, .empty⟩ [vlan, group] i source target) ∧
      ∀ device key, ∃ x, extract key device ⟨[vlan, group]⟩ .standard = .ok x := by
  intro vlan group domain leaf
  have accepted : RuleSet.ofRules .standard none [vlan, group] = .ok ⟨[vlan, group]⟩ := rfl
  refine ⟨accepted, ?_, ?_⟩
  · exact (((extract_fails_iff_stopsAt accepted).1 .empty leaf "web").1).1 ⟨_, rfl⟩
  · exact ((extract_fails_iff_stopsAt accepted).2 .standard fun _ _ h => h).1

end FabricFootprint
