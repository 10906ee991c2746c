import FabricFootprint.Proofs.Extraction.Locality

/-!
FabricFootprint.Proofs.Extraction.Idle — rules that select nothing, and runs without them.

* `Rule.Idle` — the ways in which a rule comes to work on no record: it has no
  seed, or none that it can use, or there is no record for it. `Rule.idle_iff` says
  that there are no others.
* `Progress.step_of_idle` — such a rule leaves the data and the filters as they are, and
  raises one issue at most.
* `Incident.without?` — a report in terms of the list without a rule: the reports of this rule
  are gone, and the rules after it have moved up by one.
* `Extraction.run_movedUp` — rules that have moved up by one do what they did, under their new
  positions (`Progress.step_movedUp` and `Progress.step_movedUp_error` for one rule).
* `extract_without_idle` — a rule that selects nothing is as if it were not there.
-/

namespace FabricFootprint

/-! ## Idle rules -/

namespace Rule

/-- A rule works on no record, given the data written so far, and does not end the run. -/
inductive Idle (rule : Rule) (context : RunContext) (data : Record) : Prop where
  /-- The field that the seed comes from is absent or null. -/
  | noSeed (hmatch : rule.hasMatchStep = true) (h : ¬ rule.HasRawSeed data)
  /-- The converter refuses the seed. -/
  | seedRefused {fault : ConversionFault} (hmatch : rule.hasMatchStep = true)
      (h : rule.seed context.registry context.key data = .refused fault)
  /-- The seed is no text, where texts are compared. -/
  | seedNoText {seed : Value} (h : rule.seed context.registry context.key data = .found seed)
      (hpart : rule.matchType = .containment) (htext : seed.str? = none)
  /-- The chunk is missing or empty. A seed whose conversion is not registered
  ends the run even then. -/
  | noRecord (h : context.device.records rule.chunk = [])
      (hruns : ∀ source target, ¬ rule.Stops context.registry data source target)
  /-- No record of the chunk fits the seed. -/
  | noneFits {seed : Value} (hmatch : rule.hasMatchStep = true)
      (h : rule.seed context.registry context.key data = .found seed)
      (hnone : ∀ record ∈ context.device.records rule.chunk, ¬ rule.Fits seed record)

section

variable {rule : Rule} {context : RunContext} {data : Record}

theorem convertSeed_ne_absent (registry : ConversionRegistry) (raw : Value) :
    rule.convertSeed registry raw ≠ .absent := by
  unfold convertSeed
  split
  · exact nofun
  · split <;> exact nofun

theorem seed_eq_absent_iff {registry : ConversionRegistry} {key : String} :
    rule.seed registry key data = .absent ↔ ¬ rule.HasRawSeed data := by
  rw [hasRawSeed_iff key, seed]
  cases rule.rawSeed? key data with
  | none => simp
  | some raw => simp [convertSeed_ne_absent]

/-- Among records none is selected that is not there or does not fit. -/
theorem select_eq_nil_iff {seed : Value} {chunk : List Record} :
    rule.select seed chunk = [] ↔ ∀ record ∈ chunk, ¬ rule.Fits seed record := by
  simp only [List.eq_nil_iff_forall_not_mem, mem_select_iff, not_and]

/-- A rule is idle exactly when it gets through its match step without a record. -/
theorem idle_iff (index : Nat) :
    rule.Idle context data ↔
      ∃ issue, rule.candidates context index data = .ok ([], issue) := by
  constructor
  · intro h
    cases h with
    | noSeed hmatch h => exact ⟨none, by simp [candidates, hmatch, seed_eq_absent_iff.2 h]⟩
    | @seedRefused fault hmatch h =>
      exact ⟨some (context.refusedIssue index fault),
        by simp only [candidates, if_pos hmatch, h]⟩
    | seedNoText h hpart htext =>
      have hmatch : rule.hasMatchStep = true := by simp [hasMatchStep, hpart]
      exact ⟨_,
        by simp only [candidates, if_pos hmatch, h, selectWithIssue, hpart, htext]; rfl⟩
    | noRecord h hruns =>
      cases hfound : rule.candidates context index data with
      | error fault =>
        obtain ⟨source, target, hstops, -⟩ := (candidates_eq_error_iff context).1 hfound
        exact absurd hstops (hruns source target)
      | ok found =>
        obtain ⟨records, issue⟩ := found
        have hnil : records = [] := by
          rw [eq_selection_of_candidates hfound, List.eq_nil_iff_forall_not_mem]
          intro record hrecord
          rw [mem_selection_iff, h] at hrecord
          exact absurd hrecord.1 List.not_mem_nil
        exact ⟨issue, by rw [hnil]⟩
    | @noneFits seed hmatch h hnone =>
      have hnil :
          (rule.selectWithIssue context index seed (context.device.records rule.chunk)).1 =
            [] :=
        fst_selectWithIssue.trans (select_eq_nil_iff.2 hnone)
      refine
        ⟨(rule.selectWithIssue context index seed (context.device.records rule.chunk)).2, ?_⟩
      rw [candidates, if_pos hmatch, h, ← hnil]
  · intro h
    obtain ⟨issue, hfound⟩ := h
    have hselection := eq_selection_of_candidates hfound
    by_cases hmatch : rule.hasMatchStep = true
    · cases hseed : rule.seed context.registry context.key data with
      | absent => exact .noSeed hmatch (seed_eq_absent_iff.1 hseed)
      | refused fault => exact .seedRefused hmatch hseed
      | unregistered fault =>
        rw [candidates, if_pos hmatch, hseed] at hfound
        cases hfound
      | found seed =>
        rw [selection, if_pos hmatch, hseed] at hselection
        exact .noneFits hmatch hseed (select_eq_nil_iff.1 hselection.symm)
    · rw [selection, if_neg hmatch] at hselection
      exact .noRecord hselection.symm fun _ _ hstops => hmatch hstops.1

end

end Rule

/-- An idle rule leaves the data and the filters as they are. -/
theorem Progress.step_of_idle {p : Progress} {context : RunContext} {rule : Rule}
    (h : rule.Idle context p.data) (index : Nat) :
    ∃ raised : Option Incident, (∀ e ∈ raised, context.IsIssue index e) ∧
      p.step context index rule = .ok { p with issues := p.issues ++ raised.toList } := by
  obtain ⟨raised, hfound⟩ := (Rule.idle_iff index).1 h
  refine ⟨raised, ?_, ?_⟩
  · intro e he
    cases he
    exact (Rule.isIssue_of_candidates hfound).2
  · cases raised <;> simp [step, hfound, absorb, withIssue]

/-! ## Rules that have moved up -/

/-- The report of a rule that has moved up by one. -/
def Incident.movedUp (e : Incident) : Incident := { e with rule := e.rule.map (· - 1) }

namespace Progress

variable {p q : Progress} {context : RunContext} {index : Nat} {rule : Rule}

/-- A rule that has moved up by one does what it did, whatever was reported before. -/
theorem step_movedUp (h : p.step context (index + 1) rule = .ok q) (issues : List Incident) :
    ∃ raised : Option Incident, q.issues = p.issues ++ raised.toList ∧
      step context index rule { p with issues := issues } =
        .ok { q with issues := issues ++ (raised.map Incident.movedUp).toList } := by
  obtain ⟨records, raised, hfound, rfl⟩ := step_eq_ok_iff.1 h
  have hmoved : raised.map Incident.movedUp = raised.map fun e => e.withRule index := by
    cases raised with
    | none => rfl
    | some e =>
      have hrule := (Rule.isIssue_of_candidates hfound).2.rule
      simp [Incident.movedUp, Incident.withRule, hrule]
  refine ⟨raised, rfl, ?_⟩
  rw [hmoved]
  exact step_eq_ok_iff.2 ⟨records, _, Rule.candidates_withRule hfound index, rfl⟩

/-- A rule that has moved up by one fails as it did. -/
theorem step_movedUp_error {fault : Fault}
    (h : p.step context (index + 1) rule = .error fault) (issues : List Incident) :
    ∃ moved, step context index rule { p with issues := issues } = .error moved ∧
      context.locate index (Incident.ofFault moved) =
        (context.locate (index + 1) (Incident.ofFault fault)).movedUp := by
  obtain ⟨source, target, hstops, rfl⟩ := step_eq_error_iff.1 h
  exact ⟨_, step_eq_error_iff.2 ⟨source, target, hstops, rfl⟩, rfl⟩

end Progress

namespace Extraction

/-- Rules that have moved up by one do what they did, whatever was reported before; their
reports are labelled with their new positions. The induction is on the rules; the position and
what has been gathered vary with it. -/
theorem run_movedUp (context : RunContext) (rules : List Rule) (index : Nat) (p : Progress)
    (issues : List Incident) :
    (∀ q, run context (index + 1) rules p = .ok q → ∃ raised, q.issues = p.issues ++ raised ∧
      run context index rules { p with issues := issues } =
        .ok { q with issues := issues ++ raised.map Incident.movedUp }) ∧
    ∀ e, run context (index + 1) rules p = .error e →
      run context index rules { p with issues := issues } = .error e.movedUp := by
  induction rules generalizing index p issues with
  | nil =>
    constructor
    · intro q hq
      cases hq
      exact ⟨[], by simp, by simp [run]⟩
    · intro e he
      cases he
  | cons rule rest ih =>
    rw [run_cons, run_cons]
    cases hstep : p.step context (index + 1) rule with
    | error fault =>
      obtain ⟨moved, hmoved, hlocate⟩ := Progress.step_movedUp_error hstep issues
      rw [hmoved]
      constructor
      · intro q hq
        cases hq
      · intro e he
        cases he
        exact congrArg Except.error hlocate
    | ok r =>
      obtain ⟨first, hfirst, hmoved⟩ := Progress.step_movedUp hstep issues
      rw [hmoved]
      obtain ⟨hok, herror⟩ := ih (index + 1) r (issues ++ (first.map Incident.movedUp).toList)
      refine ⟨?_, herror⟩
      intro q hq
      obtain ⟨later, hlater, hrun⟩ := hok q hq
      refine ⟨first.toList ++ later, ?_, ?_⟩
      · rw [hlater, hfirst, List.append_assoc]
      · refine hrun.trans ?_
        cases first <;> simp

end Extraction

/-! ## Runs without a rule -/

/-- The report in terms of the list without the rule at a position: nothing is left of the
reports of this rule, and later rules have moved up. -/
def Incident.without? (i : Nat) (e : Incident) : Option Incident :=
  match e.rule with
  | none => some e
  | some j => if j < i then some e else if j = i then none else some e.movedUp

/-- The extraction in terms of the list without the rule at a position. -/
def Extraction.without (i : Nat) (x : Extraction) : Extraction :=
  { x with issues := x.issues.filterMap (Incident.without? i) }

namespace Incident

variable {e : Incident} {i j : Nat}

theorem without?_of_lt (h : e.rule = some j) (hlt : j < i) : e.without? i = some e := by
  simp [without?, h, hlt]

theorem without?_of_eq (h : e.rule = some i) : e.without? i = none := by
  simp [without?, h]

theorem without?_of_gt (h : e.rule = some j) (hgt : i < j) :
    e.without? i = some e.movedUp := by
  have hlt : ¬ j < i := by omega
  have hne : j ≠ i := by omega
  simp [without?, h, hlt, hne]

/-- The reports of the rules before a position stay. -/
theorem filterMap_without?_of_lt {es : List Incident}
    (h : ∀ e ∈ es, ∃ j, e.rule = some j ∧ j < i) :
    es.filterMap (without? i) = es := by
  rw [List.filterMap_congr (g := some), List.filterMap_some]
  intro e he
  obtain ⟨j, hj, hlt⟩ := h e he
  exact without?_of_lt hj hlt

/-- The reports of the rules after a position stay, each labelled with the new
position of its rule. -/
theorem filterMap_without?_of_gt {es : List Incident}
    (h : ∀ e ∈ es, ∃ j, e.rule = some j ∧ i < j) :
    es.filterMap (without? i) = es.map movedUp := by
  rw [← List.filterMap_eq_map]
  refine List.filterMap_congr ?_
  intro e he
  obtain ⟨j, hj, hgt⟩ := h e he
  exact without?_of_gt hj hgt

end Incident

namespace Extraction

variable {context : RunContext} {before after : List Rule} {rule : Rule}

/-- The rules before an idle rule do what they did, and so do the rules after it, since the
rule leaves them what it found. -/
theorem run_without_idle {p q : Progress}
    (hbefore : run context 0 before Progress.start = .ok p) (h : rule.Idle context p.data)
    (hrun : run context 0 (before ++ rule :: after) Progress.start = .ok q) :
    run context 0 (before ++ after) Progress.start =
      .ok { q with issues := q.issues.filterMap (Incident.without? before.length) } := by
  obtain ⟨raised, hraised, hstep⟩ := Progress.step_of_idle h before.length
  rw [run_append, hbefore] at hrun ⊢
  simp only [Nat.zero_add, run_cons, hstep] at hrun ⊢
  obtain ⟨later, hlater, hmoved⟩ :=
    (run_movedUp context after before.length _ p.issues).1 q hrun
  have hfirst : p.issues.filterMap (Incident.without? before.length) = p.issues := by
    obtain ⟨earlier, hearlier, hpositions⟩ := run_issues_positions hbefore
    refine Incident.filterMap_without?_of_lt ?_
    intro e he
    obtain ⟨j, hj, -, hlt⟩ := hpositions e (by simpa [hearlier, Progress.start] using he)
    exact ⟨j, hj, by omega⟩
  have hown : raised.toList.filterMap (Incident.without? before.length) = [] := by
    cases raised with
    | none => rfl
    | some e => simp [Incident.without?_of_eq (hraised e rfl).rule]
  have hrest :
      later.filterMap (Incident.without? before.length) = later.map Incident.movedUp := by
    obtain ⟨later', hlater', hpositions⟩ := run_issues_positions hrun
    have heq : later' = later := List.append_cancel_left (hlater'.symm.trans hlater)
    refine Incident.filterMap_without?_of_gt ?_
    intro e he
    obtain ⟨j, hj, hge, -⟩ := hpositions e (heq ▸ he)
    exact ⟨j, hj, by omega⟩
  rw [hlater, List.filterMap_append, List.filterMap_append, hfirst, hown, hrest,
    List.append_nil]
  exact hmoved

/-- When a run ends at a rule other than an idle one, it ends there
without the idle one too. -/
theorem run_without_idle_error {e : Incident}
    (h : ∀ p, run context 0 before Progress.start = .ok p → rule.Idle context p.data)
    (hrun : run context 0 (before ++ rule :: after) Progress.start = .error e) :
    ∃ f, e.without? before.length = some f ∧
      run context 0 (before ++ after) Progress.start = .error f := by
  rw [run_append] at hrun ⊢
  cases hbefore : run context 0 before Progress.start with
  | error f =>
    rw [hbefore] at hrun
    obtain ⟨i, other, q, fault, hget, -, -, rfl⟩ := run_eq_error_iff.1 hbefore
    cases hrun
    refine ⟨_, Incident.without?_of_lt rfl ?_, rfl⟩
    simpa using (List.getElem?_eq_some_iff.1 hget).1
  | ok p =>
    obtain ⟨raised, -, hstep⟩ := Progress.step_of_idle (h p hbefore) before.length
    rw [hbefore] at hrun
    simp only [Nat.zero_add, run_cons, hstep] at hrun ⊢
    obtain ⟨i, other, q, fault, -, -, -, rfl⟩ := run_eq_error_iff.1 hrun
    have hmoved := (run_movedUp context after before.length
      { p with issues := p.issues ++ raised.toList } p.issues).2 _ hrun
    exact ⟨_, Incident.without?_of_gt rfl (by omega), hmoved⟩

end Extraction

/-- A rule that selects nothing is as if it were not there. Let the rule at a position be idle
whenever the run comes to it. Then it leaves the data and the filters as they are and raises
one issue at most; and without it the extraction gives the same data and the same issues, or
the same error, but for the issue of this rule and for the positions of the rules after it.
Neither list has to pass the checks on rule lists. -/
theorem extract_without_idle {key : String} {device : DeviceChunks} {rules : RuleSet}
    {registry : ConversionRegistry} {i : Nat} {rule : Rule}
    (hget : rules.rules[i]? = some rule)
    (hidle : ∀ p, Reaches ⟨key, device, registry⟩ rules.rules i p →
      rule.Idle ⟨key, device, registry⟩ p.data) :
    (∀ p, Reaches ⟨key, device, registry⟩ rules.rules i p → ∃ raised : Option Incident,
      (∀ e ∈ raised, RunContext.IsIssue ⟨key, device, registry⟩ i e) ∧
      p.step ⟨key, device, registry⟩ i rule =
        .ok { p with issues := p.issues ++ raised.toList }) ∧
    (∀ x, extract key device rules registry = .ok x →
      extract key device ⟨rules.rules.eraseIdx i⟩ registry = .ok (x.without i)) ∧
    ∀ e, extract key device rules registry = .error e →
      ∃ f, e.without? i = some f ∧
        extract key device ⟨rules.rules.eraseIdx i⟩ registry = .error f := by
  obtain ⟨hi, hat⟩ := List.getElem?_eq_some_iff.1 hget
  have hlen : (rules.rules.take i).length = i := by simp [Nat.le_of_lt hi]
  have hsplit : rules.rules = rules.rules.take i ++ rule :: rules.rules.drop (i + 1) := by
    rw [← hat, List.getElem_cons_drop, List.take_append_drop]
  have herase : rules.rules.eraseIdx i = rules.rules.take i ++ rules.rules.drop (i + 1) :=
    List.eraseIdx_eq_take_drop_succ ..
  refine ⟨?_, ?_, ?_⟩
  · intro p hreach
    exact Progress.step_of_idle (hidle p hreach) i
  · intro x hx
    obtain ⟨q, hrun, rfl⟩ := extract_eq_ok_iff.1 hx
    rw [reaches_length_iff, hsplit] at hrun
    obtain ⟨p, hreach, -⟩ := Extraction.run_append_eq_ok_iff.1 hrun
    have hwithout := Extraction.run_without_idle hreach (hidle p hreach) hrun
    rw [hlen, ← herase] at hwithout
    exact extract_eq_ok_iff.2 ⟨_, reaches_length_iff.2 hwithout, rfl⟩
  · intro e he
    have hrun := extract_eq_error_iff_run.1 he
    rw [hsplit] at hrun
    obtain ⟨f, hf, hwithout⟩ := Extraction.run_without_idle_error hidle hrun
    rw [hlen] at hf
    rw [← herase] at hwithout
    exact ⟨f, hf, extract_eq_error_iff_run.2 hwithout⟩

/-- A converter refuses the name of a network, so the second rule does nothing but report it.
Without this rule the third one, which takes its seed from the first one, writes what it wrote
and reports what it reported, as the second rule. -/
theorem extract_without_idle_networks :
    let ports : Rule :=
      { (default : Rule) with chunk := "ports", destName := "id", commonKeys := ["network"] }
    let networks : Rule :=
      { (default : Rule) with
        chunk := "networks", linkage := .indirect, sourceName := "network"
        destName := "number"
        sourceType := some .string, destType := some .integer, commonKeys := ["mtu"]
        filter := some ⟨"zones", "zone"⟩ }
    let policies : Rule :=
      { (default : Rule) with
        chunk := "policies", linkage := .indirect, sourceName := "network"
        destName := "network", commonKeys := ["action"] }
    let texts (members : List (String × String)) : Record :=
      FieldMap.ofList (members.map fun m => (m.1, Value.str m.2))
    let leaf : DeviceChunks :=
      ⟨"leaf-1", FieldMap.ofList
        [("ports", [texts [("id", "100"), ("network", "blue")]]),
          ("networks", [FieldMap.ofList [("number", .int 7), ("mtu", .int 1500)]]),
          ("policies", [FieldMap.ofList [("network", .int 7)],
            texts [("network", "blue"), ("action", "allow")]])]⟩
    let context : RunContext := ⟨"100", leaf, .standard⟩
    let data : Record := texts [("action", "allow"), ("network", "blue")]
    let ofNetworks : Incident := context.refusedIssue 1
      (.failed .string .integer "blue" "invalid digit found in string")
    let ofPolicies (i : Nat) : Incident :=
      context.mistypedIssue i policies (.str "blue") "integer" 1
    networks.Idle context (texts [("network", "blue")]) ∧
      extract "100" leaf ⟨[ports, networks, policies]⟩ .standard =
        .ok ⟨"100", data, [ofNetworks, ofPolicies 2]⟩ ∧
      extract "100" leaf ⟨[ports, policies]⟩ .standard =
        .ok ⟨"100", data, [ofPolicies 1]⟩ := by
  intro ports networks policies texts leaf context data ofNetworks ofPolicies
  have hseed : networks.seed .standard "100" (texts [("network", "blue")]) =
      .refused (.failed .string .integer "blue" "invalid digit found in string") := by
    simp only [networks, texts]
    rfl
  have hidle : networks.Idle context (texts [("network", "blue")]) := .seedRefused rfl hseed
  have hall : extract "100" leaf ⟨[ports, networks, policies]⟩ .standard =
      .ok ⟨"100", data, [ofNetworks, ofPolicies 2]⟩ := by
    simp only [ports, networks, policies, texts, leaf, data, ofNetworks, ofPolicies, context]
    rfl
  have hreached : Reaches context [ports, networks, policies] 1
      ⟨texts [("network", "blue")], FilterTable.empty, []⟩ := by
    simp only [ports, networks, policies, texts, leaf, context]
    rfl
  refine ⟨hidle, hall, ?_⟩
  have hidleReached (p : Progress) (h : Reaches context [ports, networks, policies] 1 p) :
      networks.Idle context p.data := by
    have hp := hreached.symm.trans h
    injection hp with hp
    rw [← hp]
    exact hidle
  have hget : (RuleSet.mk [ports, networks, policies]).rules[1]? = some networks := rfl
  exact (extract_without_idle hget hidleReached).2.1 _ hall

end FabricFootprint
