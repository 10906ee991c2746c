import FabricFootprint.Proofs.Extraction.Issues
import FabricFootprint.Proofs.Extraction.Reach

/-!
FabricFootprint.Proofs.Extraction.Reports — what an extraction reports, as a whole.

* `Progress.length_issues_step` — a rule adds to the number of issues by one at most, and not
  without a match step; so a run raises no more issues than it has rules with a match step.
* `OrderlyIssues` — the issues of an extraction: in the order of their rules, one for a rule
  at most, each a matter of data and labelled with a rule that has a match step.
* `FatalReport` — the report that an extraction ends with: a matter of
  configuration, labelled likewise.
* `extract_reports` — an extraction gives the one or the other.
-/

namespace FabricFootprint

/-! ## How many issues -/

namespace Progress

theorem length_issues_step {p q : Progress} {context : RunContext} {index : Nat} {rule : Rule}
    (h : p.step context index rule = .ok q) :
    q.issues.length ≤ p.issues.length + if rule.hasMatchStep then 1 else 0 := by
  obtain ⟨raised, hissues, hraised⟩ := step_issues h
  cases raised with
  | none => simp [hissues]
  | some e => simp [hissues, (hraised e rfl).1]

end Progress

/-- A run from the beginning raises no more issues than it has rules with a match step. -/
theorem Extraction.length_issues_run {context : RunContext} {rules : List Rule} {p : Progress}
    (h : run context 0 rules Progress.start = .ok p) :
    p.issues.length ≤ rules.countP Rule.hasMatchStep := by
  refine run_induction
    (motive := fun rules p => p.issues.length ≤ rules.countP Rule.hasMatchStep)
    ?start ?step h
  case start => simp [Progress.start]
  case step =>
    intro before rule p q _ hstep ih
    have hone := Progress.length_issues_step hstep
    rw [List.countP_append, List.countP_singleton]
    omega

/-- Reports in the order of their rules are of different rules. -/
theorem nodup_rules_of_before {issues : List Incident} (h : issues.Pairwise Incident.Before) :
    (issues.map Incident.rule).Nodup := by
  refine List.pairwise_map.2 (h.imp ?_)
  intro a b hbefore heq
  obtain ⟨i, j, ha, hb, hlt⟩ := hbefore
  rw [ha, hb] at heq
  injection heq with heq
  omega

/-! ## Reports of extractions -/

/-- The issues of an extraction of some rules. -/
structure OrderlyIssues (context : RunContext) (rules : List Rule) (issues : List Incident) :
    Prop where
  ordered : issues.Pairwise Incident.Before
  distinct : (issues.map Incident.rule).Nodup
  few : issues.length ≤ rules.countP Rule.hasMatchStep
  labelled : ∀ e ∈ issues, ∃ i rule, rules[i]? = some rule ∧ rule.hasMatchStep = true ∧
    context.IsIssue i e
  data : ∀ e ∈ issues, e.kind.isConfiguration = false

/-- The report that an extraction of some rules ends with. -/
structure FatalReport (context : RunContext) (rules : List Rule) (e : Incident) : Prop where
  operation : e.operation = some "extract"
  device : e.device = some context.device.name
  key : e.key = some context.key
  labelled : ∃ i rule, rules[i]? = some rule ∧ rule.hasMatchStep = true ∧ e.rule = some i
  configuration : e.kind.isConfiguration = true

theorem OrderlyIssues.length_le {context : RunContext} {rules : List Rule}
    {issues : List Incident}
    (h : OrderlyIssues context rules issues) : issues.length ≤ rules.length :=
  Nat.le_trans h.few List.countP_le_length

theorem RunContext.IsIssue.isConfiguration_kind {context : RunContext} {i : Nat}
    {e : Incident} (h : context.IsIssue i e) : e.kind.isConfiguration = false := by
  cases h.kind with
  | inl hkind => simp [hkind, FaultKind.isConfiguration]
  | inr hkind => simp [hkind, FaultKind.isConfiguration]

/-- Every report of an extraction is in its place. The issues of an extraction that goes
through come in the order of their rules, one for a rule at most, and are matters of data; the
report of one that does not is a matter of configuration. All are labelled with the operation,
device and key, and with a rule of the list that has a match step. The list need not pass the
checks on rule lists. -/
theorem extract_reports (key : String) (device : DeviceChunks) (rules : RuleSet)
    (registry : ConversionRegistry) :
    (∀ x, extract key device rules registry = .ok x →
      OrderlyIssues ⟨key, device, registry⟩ rules.rules x.issues ∧
        x.issues.length ≤ rules.rules.length) ∧
    ∀ e, extract key device rules registry = .error e →
      FatalReport ⟨key, device, registry⟩ rules.rules e := by
  constructor
  · intro x hx
    obtain ⟨hlabelled, hordered⟩ := extract_issues hx
    obtain ⟨p, hreach, rfl⟩ := extract_eq_ok_iff.1 hx
    have hdata : ∀ e ∈ p.issues, e.kind.isConfiguration = false := by
      intro e he
      obtain ⟨i, rule, -, -, hissue⟩ := hlabelled e he
      exact hissue.isConfiguration_kind
    have horderly : OrderlyIssues ⟨key, device, registry⟩ rules.rules p.issues :=
      ⟨hordered, nodup_rules_of_before hordered,
        Extraction.length_issues_run (reaches_length_iff.1 hreach), hlabelled, hdata⟩
    exact ⟨horderly, horderly.length_le⟩
  · intro e he
    obtain ⟨i, source, target, hstops, rfl⟩ := extract_eq_error_iff.1 he
    obtain ⟨rule, p, hget, -, hrule⟩ := hstops
    exact ⟨rfl, rfl, rfl, ⟨i, rule, hget, hrule.1, rfl⟩, rfl⟩

/-- A leaf whose port has a number for an identifier, and whose network has a name for a
number. The first and the third rule report this; when nobody has registered the conversion
that the third rule declares, the extraction ends there. -/
theorem extract_reports_networks :
    let ports : Rule := { (default : Rule) with chunk := "ports", destName := "id" }
    let names : Rule :=
      { (default : Rule) with
        chunk := "ports", linkage := .noLink, matchType := .noMatch
        commonKeys := ["network"] }
    let networks : Rule :=
      { (default : Rule) with
        chunk := "networks", linkage := .indirect, sourceName := "network"
        destName := "number"
        sourceType := some .string, destType := some .integer, commonKeys := ["mtu"] }
    let rules : RuleSet := ⟨[ports, names, networks]⟩
    let port : Record := FieldMap.ofList [("id", .int 100), ("network", .str "blue")]
    let leaf : DeviceChunks := ⟨"leaf-1", FieldMap.ofList [("ports", [port])]⟩
    let context : RunContext := ⟨"100", leaf, .standard⟩
    let ofPorts : Incident := context.mistypedIssue 0 ports (.str "100") "integer" 1
    let ofNetworks : Incident := context.refusedIssue 2
      (.failed .string .integer "blue" "invalid digit found in string")
    let fatal : Incident :=
      context.locate 2 (Incident.ofFault (.unregisteredConversion 2 .string .integer))
    extract "100" leaf rules .standard =
        .ok ⟨"100", FieldMap.ofList [("network", .str "blue")], [ofPorts, ofNetworks]⟩ ∧
      OrderlyIssues context rules.rules [ofPorts, ofNetworks] ∧
      extract "100" leaf rules .empty = .error fatal ∧
      FatalReport ⟨"100", leaf, .empty⟩ rules.rules fatal := by
  intro ports names networks rules port leaf context ofPorts ofNetworks fatal
  have hok : extract "100" leaf rules .standard =
      .ok ⟨"100", FieldMap.ofList [("network", .str "blue")], [ofPorts, ofNetworks]⟩ := by
    simp only [rules, ports, names, networks, port, leaf, context, ofPorts, ofNetworks]
    rfl
  have herror : extract "100" leaf rules .empty = .error fatal := by
    simp only [rules, ports, names, networks, port, leaf, context, fatal]
    rfl
  obtain ⟨hissues, -⟩ := (extract_reports "100" leaf rules .standard).1 _ hok
  have hfatal := (extract_reports "100" leaf rules .empty).2 _ herror
  exact ⟨hok, hissues, herror, hfatal⟩

end FabricFootprint
