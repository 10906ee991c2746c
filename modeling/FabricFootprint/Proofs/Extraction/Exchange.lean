import FabricFootprint.Proofs.Extraction.Locality
import FabricFootprint.Proofs.Extraction.WriteOrder
import FabricFootprint.Proofs.Rule.Written

/-!
FabricFootprint.Proofs.Extraction.Exchange — independent rules can be exchanged.

* `Rule.Unaffected` — a rule takes nothing from what another one writes or captures.
* `Rule.Independent` — two rules are unaffected by each other, write no common field
  and capture no common filter. What a rule can write is judged as the
  written-fields analysis judges it.
* `Rule.Independent.agree_after` — in either order the two leave the same data, and the same
  values under every filter.
* `Progress.step_exchange` — the two steps in the other order: each rule raises the issue that
  it raised, at its new position.
* `IssuesExchanged` — the issues of two runs, but for the exchange of two neighbouring rules.
* `extract_exchange` — with two neighbouring independent rules exchanged, an extraction goes
  through exactly when it did, with the same data and the issues exchanged.
-/

namespace FabricFootprint

/-! ## Independent rules -/

namespace Rule

/-- A rule takes nothing from another one: neither its seed from a field that the other can
write, nor the values that it searches for from a filter that the other captures. -/
structure Unaffected (rule other : Rule) : Prop where
  reads : ∀ field, rule.Reads field → ¬ other.CanWrite field
  searches : ∀ name, rule.SearchesFrom name → ¬ other.Captures name

/-- Neither of two rules touches what the other one reads, writes,
searches from or captures. -/
structure Independent (r s : Rule) : Prop where
  writes : ∀ field, r.CanWrite field → ¬ s.CanWrite field
  captures : ∀ name, r.Captures name → ¬ s.Captures name
  left : r.Unaffected s
  right : s.Unaffected r

theorem Independent.symm {r s : Rule} (h : r.Independent s) : s.Independent r :=
  ⟨fun field hs hr => h.writes field hr hs, fun name hs hr => h.captures name hr hs,
    h.right, h.left⟩

section

variable {r s : Rule} {context : RunContext} {p : Progress}

/-- What a rule copies it can write. -/
theorem canWrite_of_mem_writesFrom {w : Write} (h : w ∈ r.writesFrom context p) :
    r.CanWrite w.1 := by
  obtain ⟨record, -, hcopies⟩ := copies_of_mem_writes (v := w.2) h
  exact canWrite_of_copies hcopies

theorem get?_data_after {field : String} (h : ¬ r.CanWrite field) (issue : Option Incident) :
    (p.after context r issue).data.get? field = p.data.get? field := by
  refine get?_applyWrites_of_ne (fun w hw hname => h ?_) p.data
  rw [← hname]
  exact canWrite_of_mem_writesFrom hw

theorem values_filters_after {name : String} (h : ¬ r.Captures name)
    (issue : Option Incident) :
    (p.after context r issue).filters.values name = p.filters.values name := by
  simp only [Progress.after, values_filtersAfter, captured?_eq_none h, Option.getD_none]

/-! ## A rule after another -/

theorem Unaffected.candidates_after (h : s.Unaffected r) (index : Nat)
    (issue : Option Incident) :
    s.candidates context index (p.after context r issue).data =
      s.candidates context index p.data :=
  candidates_congr (fun field hreads => get?_data_after (h.reads field hreads) issue) index

theorem Unaffected.selection_after (h : s.Unaffected r) (issue : Option Incident) :
    s.selection context (p.after context r issue).data = s.selection context p.data :=
  selection_congr fun field hreads => get?_data_after (h.reads field hreads) issue

theorem Unaffected.writesFrom_after (h : s.Unaffected r) (issue : Option Incident) :
    s.writesFrom context (p.after context r issue) = s.writesFrom context p := by
  rw [writesFrom, writesFrom, h.selection_after]
  refine writes_congr (fun name hsearches => ?_) _
  rw [values_filtersAfter, values_filtersAfter, h.selection_after,
    values_filters_after (h.searches name hsearches)]

/-- In either order independent rules leave the same data and the same values
under every filter. -/
theorem Independent.agree_after (h : r.Independent s) (context : RunContext) (p : Progress)
    (a b a' b' : Option Incident) :
    ((p.after context r a).after context s b).Agree
      ((p.after context s b').after context r a') := by
  constructor
  · show applyWrites (applyWrites p.data _) _ = applyWrites (applyWrites p.data _) _
    rw [h.right.writesFrom_after, h.left.writesFrom_after]
    refine applyWrites_comm (fun w hw v hv hname => ?_) p.data
    exact h.writes w.1 (canWrite_of_mem_writesFrom hw) (hname ▸ canWrite_of_mem_writesFrom hv)
  · intro name
    show (s.filtersAfter context (p.after context r a)).values name =
      (r.filtersAfter context (p.after context s b')).values name
    rw [values_filtersAfter, values_filtersAfter, h.right.selection_after,
      h.left.selection_after]
    -- one of the two at most captures under this name, so it does not show which came last
    by_cases hr : r.Captures name
    · rw [captured?_eq_none (h.captures name hr), values_filters_after (h.captures name hr)]
      exact values_filtersAfter r context p name
    · rw [captured?_eq_none hr, values_filters_after hr]
      exact (values_filtersAfter s context p name).symm

end

end Rule

/-! ## Two steps -/

/-- The steps of two independent rules in the other order. Each rule finds what it found, and
its issue is labelled with its new position. -/
theorem Progress.step_exchange {r s : Rule} (h : r.Independent s)
    {context : RunContext} {i : Nat} {p q t : Progress} (hr : p.step context i r = .ok q)
    (hs : q.step context (i + 1) s = .ok t) :
    ∃ first second : Option Incident,
      t.issues = p.issues ++ first.toList ++ second.toList ∧
      (∀ e ∈ first, e.rule = some i) ∧ (∀ e ∈ second, e.rule = some (i + 1)) ∧
      ∃ q' t', p.step context i s = .ok q' ∧ q'.step context (i + 1) r = .ok t' ∧ t.Agree t' ∧
        t'.issues = p.issues ++ (second.map fun e => e.withRule i).toList ++
          (first.map fun e => e.withRule (i + 1)).toList := by
  obtain ⟨rs, first, hfirst, rfl⟩ := step_eq_ok_iff.1 hr
  obtain ⟨ss, second, hsecond, rfl⟩ := step_eq_ok_iff.1 hs
  rw [h.right.candidates_after] at hsecond
  have hlabel {rule : Rule} {j : Nat} {records : List Record} {issue : Option Incident}
      (hfound : rule.candidates context j p.data = .ok (records, issue)) :
      ∀ e ∈ issue, e.rule = some j := by
    intro e he
    cases he
    exact (Rule.isIssue_of_candidates hfound).2.rule
  refine ⟨first, second, rfl, hlabel hfirst, hlabel hsecond, _, _,
    step_eq_ok_iff.2 ⟨ss, _, Rule.candidates_withRule hsecond i, rfl⟩,
    step_eq_ok_iff.2 ⟨rs, first.map fun e => e.withRule (i + 1), ?_, rfl⟩,
    h.agree_after context p first second _ _, rfl⟩
  rw [h.left.candidates_after]
  exact Rule.candidates_withRule hfirst (i + 1)

/-! ## Whole runs -/

/-- The issues of two runs, of which the second one has the rules at `i` and `i + 1`
exchanged: the issues of these two rules have changed places, each labelled with its new
position, and all others are the same. -/
def IssuesExchanged (i : Nat) (xs ys : List Incident) : Prop :=
  ∃ (earlier : List Incident) (first second : Option Incident) (later : List Incident),
    xs = earlier ++ first.toList ++ second.toList ++ later ∧
    ys = earlier ++ (second.map fun e => e.withRule i).toList ++
      (first.map fun e => e.withRule (i + 1)).toList ++ later ∧
    (∀ e ∈ earlier, ∃ j, e.rule = some j ∧ j < i) ∧ (∀ e ∈ first, e.rule = some i) ∧
    (∀ e ∈ second, e.rule = some (i + 1)) ∧ ∀ e ∈ later, ∃ j, e.rule = some j ∧ i + 1 < j

/-- A run with two neighbouring independent rules exchanged. The rules before the two do the
same; the two leave the same, but for the order of captures and issues, and so the rules
after them do the same. -/
theorem Extraction.run_exchange {r s : Rule} (h : r.Independent s) {context : RunContext}
    {before after : List Rule} {p : Progress}
    (hrun : run context 0 (before ++ r :: s :: after) Progress.start = .ok p) :
    ∃ q, run context 0 (before ++ s :: r :: after) Progress.start = .ok q ∧ q.data = p.data ∧
      IssuesExchanged before.length p.issues q.issues := by
  obtain ⟨p₀, hbefore, hrest⟩ := run_append_eq_ok_iff.1 hrun
  obtain ⟨p₁, hr, hrest⟩ := run_cons_eq_ok_iff.1 hrest
  obtain ⟨p₂, hs, hafter⟩ := run_cons_eq_ok_iff.1 hrest
  obtain ⟨first, second, hissues, hfirst, hsecond, q₁, q₂, hs', hr', hagree, hexchanged⟩ :=
    Progress.step_exchange h hr hs
  obtain ⟨q, later, hafter', hend, hp, hq⟩ := run_agree hagree hafter
  have hrun' : run context 0 (before ++ s :: r :: after) Progress.start = .ok q :=
    run_append_eq_ok_iff.2 ⟨p₀, hbefore, run_cons_eq_ok_iff.2 ⟨q₁, hs',
      run_cons_eq_ok_iff.2 ⟨q₂, hr', hafter'⟩⟩⟩
  refine ⟨q, hrun', hend.data.symm, p₀.issues, first, second, later, ?_, ?_, ?_, ?_, ?_, ?_⟩
  · rw [hp, hissues]
  · rw [hq, hexchanged]
    simp only [Nat.zero_add]
  · obtain ⟨raised, hraised, hpositions⟩ := run_issues_positions hbefore
    intro e he
    rw [hraised] at he
    obtain ⟨j, hj, -, hlt⟩ := hpositions e (by simpa [Progress.start] using he)
    exact ⟨j, hj, by omega⟩
  · simpa using hfirst
  · simpa using hsecond
  · obtain ⟨raised, hraised, hpositions⟩ := run_issues_positions hafter
    have hlater : raised = later := List.append_cancel_left (hraised.symm.trans hp)
    subst hlater
    intro e he
    obtain ⟨j, hj, hge, -⟩ := hpositions e he
    exact ⟨j, hj, by omega⟩

/-- Independent rules commute. When two neighbouring rules of a list are independent, an
extraction goes through with the two exchanged exactly when it goes through as it is, whatever
the rules around them, the key, the device and the registry; both give the same data, and the
same issues but for the exchange. Neither list has to pass the checks on rule lists. -/
theorem extract_exchange {r s : Rule} (h : r.Independent s) (before after : List Rule)
    (key : String) (device : DeviceChunks) (registry : ConversionRegistry) :
    ((∃ x, extract key device ⟨before ++ r :: s :: after⟩ registry = .ok x) ↔
      ∃ y, extract key device ⟨before ++ s :: r :: after⟩ registry = .ok y) ∧
    ∀ x y, extract key device ⟨before ++ r :: s :: after⟩ registry = .ok x →
      extract key device ⟨before ++ s :: r :: after⟩ registry = .ok y →
        y.data = x.data ∧ IssuesExchanged before.length x.issues y.issues := by
  have hexchange {r s : Rule} (h : r.Independent s) {x : Extraction}
      (hx : extract key device ⟨before ++ r :: s :: after⟩ registry = .ok x) :
      ∃ y, extract key device ⟨before ++ s :: r :: after⟩ registry = .ok y ∧
        y.data = x.data ∧ IssuesExchanged before.length x.issues y.issues := by
    obtain ⟨p, hreach, rfl⟩ := extract_eq_ok_iff.1 hx
    obtain ⟨q, hrun, hdata, hissues⟩ :=
      Extraction.run_exchange h (reaches_length_iff.1 hreach)
    exact ⟨_, extract_eq_ok_iff.2 ⟨q, reaches_length_iff.2 hrun, rfl⟩, hdata, hissues⟩
  refine ⟨⟨?_, ?_⟩, ?_⟩
  · rintro ⟨x, hx⟩
    obtain ⟨y, hy, -⟩ := hexchange h hx
    exact ⟨y, hy⟩
  · rintro ⟨y, hy⟩
    obtain ⟨x, hx, -⟩ := hexchange h.symm hy
    exact ⟨x, hx⟩
  · intro x y hx hy
    obtain ⟨y', hy', hdata, hissues⟩ := hexchange h hx
    rw [hy] at hy'
    injection hy' with hy'
    rw [hy']
    exact ⟨hdata, hissues⟩

/-- The ports and the tenants of a leaf, each with a record whose identifier is no text. The
two rules can change places, although a third one takes its seed from what one of them writes
and searches for the values that both have captured. -/
theorem extract_exchange_tenants :
    let ports : Rule :=
      { (default : Rule) with
        chunk := "ports", destName := "id", commonKeys := ["vlan"]
        filter := some ⟨"kinds", "kind"⟩ }
    let tenants : Rule :=
      { (default : Rule) with
        chunk := "tenants", destName := "id", commonKeys := ["name"], qualifier := "tenant"
        filter := some ⟨"zones", "zone"⟩, combineBy := some ⟨"zone", ["mtu"]⟩ }
    let policies : Rule :=
      { (default : Rule) with
        chunk := "policies", sourceName := "tenant.name", destName := "tenant"
        linkage := .indirect
        splitSearch := [⟨["action"], [⟨"kinds", "kind"⟩, ⟨"zones", "zone"⟩], "policy"⟩] }
    let texts (members : List (String × String)) : Record :=
      FieldMap.ofList (members.map fun m => (m.1, Value.str m.2))
    let leaf : DeviceChunks :=
      ⟨"leaf-1", FieldMap.ofList
        [("ports", [FieldMap.ofList [("id", .int 100)],
            texts [("id", "100"), ("vlan", "7"), ("kind", "access")]]),
          ("tenants",
            [texts [("id", "100"), ("name", "blue"), ("zone", "dmz"), ("mtu", "1500")],
              FieldMap.ofList [("id", .bool true)]]),
          ("policies", [texts [("tenant", "blue"), ("kind", "access"), ("zone", "dmz"),
            ("action", "allow")]])]⟩
    let context : RunContext := ⟨"100", leaf, .standard⟩
    let data : Record :=
      texts [("mtu.dmz", "1500"), ("policy.action.access.dmz", "allow"),
        ("tenant.name", "blue"), ("vlan", "7")]
    let ofPorts (i : Nat) : Incident := context.mistypedIssue i ports (.str "100") "integer" 1
    let ofTenants (i : Nat) : Incident :=
      context.mistypedIssue i tenants (.str "100") "bool" 1
    ports.Independent tenants ∧
      extract "100" leaf ⟨[ports, tenants, policies]⟩ .standard =
        .ok ⟨"100", data, [ofPorts 0, ofTenants 1]⟩ ∧
      extract "100" leaf ⟨[tenants, ports, policies]⟩ .standard =
        .ok ⟨"100", data, [ofTenants 0, ofPorts 1]⟩ ∧
      IssuesExchanged 0 [ofPorts 0, ofTenants 1] [ofTenants 0, ofPorts 1] := by
  intro ports tenants policies texts leaf context data ofPorts ofTenants
  have hindependent : ports.Independent tenants := by
    refine ⟨fun field hports htenants => ?_, fun name hports htenants => ?_,
      ⟨?_, ?_⟩, ⟨?_, ?_⟩⟩
    · have hexact : WrittenFields.exactOf ports = ["vlan"] := rfl
      have hstems : WrittenFields.stemsOf ports = [] := rfl
      have hvlan : field = "vlan" := by simpa [Rule.CanWrite, hexact, hstems] using hports
      have hnever : ¬ tenants.CanWrite "vlan" := by
        simp only [Rule.CanWrite, tenants]
        decide
      exact hnever (hvlan ▸ htenants)
    · obtain ⟨f, hf, rfl⟩ := hports
      obtain ⟨g, hg, hname⟩ := htenants
      cases hf
      cases hg
      exact absurd hname (by decide)
    · rintro field ⟨-, hlinkage, -⟩
      exact absurd hlinkage (by decide)
    · rintro name ⟨entry, hentry, -⟩
      exact absurd hentry List.not_mem_nil
    · rintro field ⟨-, hlinkage, -⟩
      exact absurd hlinkage (by decide)
    · rintro name ⟨entry, hentry, -⟩
      exact absurd hentry List.not_mem_nil
  have hx : extract "100" leaf ⟨[ports, tenants, policies]⟩ .standard =
      .ok ⟨"100", data, [ofPorts 0, ofTenants 1]⟩ := by
    simp only [ports, tenants, policies, texts, leaf, data, ofPorts, ofTenants, context]
    rfl
  have hy : extract "100" leaf ⟨[tenants, ports, policies]⟩ .standard =
      .ok ⟨"100", data, [ofTenants 0, ofPorts 1]⟩ := by
    simp only [ports, tenants, policies, texts, leaf, data, ofPorts, ofTenants, context]
    rfl
  have hboth := (extract_exchange hindependent [] [policies] "100" leaf .standard).2 _ _ hx hy
  exact ⟨hindependent, hx, hy, hboth.2⟩

end FabricFootprint
