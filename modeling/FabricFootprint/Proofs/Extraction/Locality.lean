import FabricFootprint.Proofs.Extraction.Issues
import FabricFootprint.Proofs.Extraction.Reach
import Mathlib.Data.List.Basic

/-!
FabricFootprint.Proofs.Extraction.Locality — what a rule depends on, and
what a run depends on.

* `Rule.Reads`, `Rule.SearchesFrom`, `Rule.Captures` — the field of the data that a rule takes
  its seed from, the filters that it searches from, and the filter that it captures.
* `Rule.candidates_congr`, `Rule.writes_congr` — from the data a rule takes its seed and
  nothing else, and from the filters the values that it searches for.
* `Rule.candidates_withRule` — the position of a rule shows in the labels of its issue only.
* `Progress.after` — what a rule leaves, in closed form;
  `Progress.step_eq_ok_iff` says when it does.
* `Progress.Agree` — the same data, and filters with the same values under every name, in
  whatever order they were captured. Runs from there on raise the same issues and agree in the
  end (`Extraction.run_agree`).
-/

namespace FabricFootprint

/-- The report labelled with another rule. -/
def Incident.withRule (e : Incident) (rule : Nat) : Incident := { e with rule := some rule }

/-! ## What a rule touches -/

namespace Rule

/-- The rule takes its seed from a field of the data. -/
def Reads (rule : Rule) (field : String) : Prop :=
  rule.hasMatchStep = true ∧ rule.linkage = .indirect ∧ rule.sourceName = field

/-- A split-search of the rule searches from a filter. -/
def SearchesFrom (rule : Rule) (name : String) : Prop :=
  ∃ entry ∈ rule.splitSearch, ∃ d ∈ entry.directives, d.searchFrom = name

/-- The rule captures a filter under a name. -/
def Captures (rule : Rule) (name : String) : Prop :=
  ∃ f, rule.activeFilter? = some f ∧ f.name = name

end Rule

/-! ## Candidates -/

namespace Rule

variable {rule : Rule} {context : RunContext} {data other : Record}

theorem seed_congr (hmatch : rule.hasMatchStep = true)
    (h : ∀ field, rule.Reads field → data.get? field = other.get? field)
    (registry : ConversionRegistry) (key : String) :
    rule.seed registry key data = rule.seed registry key other := by
  have hraw : rule.rawSeed? key data = rule.rawSeed? key other := by
    unfold rawSeed?
    cases hlinkage : rule.linkage with
    | direct => rfl
    | noLink => rfl
    | indirect => simp only [Value.ofField?, h _ ⟨hmatch, hlinkage, rfl⟩]
  rw [seed, seed, hraw]

/-- A rule finds the same candidates in data that hold the same in the field that it reads. -/
theorem candidates_congr (h : ∀ field, rule.Reads field → data.get? field = other.get? field)
    (index : Nat) :
    rule.candidates context index data = rule.candidates context index other := by
  unfold candidates
  by_cases hmatch : rule.hasMatchStep = true
  · rw [seed_congr hmatch h]
  · rw [if_neg hmatch, if_neg hmatch]

theorem selection_congr (h : ∀ field, rule.Reads field → data.get? field = other.get? field) :
    rule.selection context data = rule.selection context other := by
  unfold selection
  by_cases hmatch : rule.hasMatchStep = true
  · rw [seed_congr hmatch h]
  · rw [if_neg hmatch, if_neg hmatch]

theorem selectWithIssue_withRule (context : RunContext) (i j : Nat) (rule : Rule)
    (seed : Value) (chunk : List Record) :
    rule.selectWithIssue context j seed chunk =
      ((rule.selectWithIssue context i seed chunk).1,
        (rule.selectWithIssue context i seed chunk).2.map fun e => e.withRule j) := by
  rw [selectWithIssue_eq, selectWithIssue_eq]
  split
  · rfl
  · cases rule.mistyped seed chunk <;> rfl

theorem refusedIssue_withRule (context : RunContext) (i j : Nat) (fault : ConversionFault) :
    context.refusedIssue j fault = (context.refusedIssue i fault).withRule j := by
  cases fault <;> rfl

/-- At another position a rule finds the same candidates, and its issue is labelled with that
position. No wording names the position. -/
theorem candidates_withRule {i : Nat} {records : List Record} {issue : Option Incident}
    (h : rule.candidates context i data = .ok (records, issue)) (j : Nat) :
    rule.candidates context j data = .ok (records, issue.map fun e => e.withRule j) := by
  unfold candidates at h ⊢
  by_cases hmatch : rule.hasMatchStep = true
  · rw [if_pos hmatch] at h ⊢
    cases hseed : rule.seed context.registry context.key data with
    | absent =>
      rw [hseed] at h
      cases h
      rfl
    | found seed =>
      rw [hseed] at h
      injection h with h
      simp only [selectWithIssue_withRule context i j, h]
    | refused fault =>
      rw [hseed] at h
      cases h
      simp only [refusedIssue_withRule context i j, Option.map_some]
    | unregistered fault =>
      rw [hseed] at h
      exact nomatch h
  · rw [if_neg hmatch] at h ⊢
    cases h
    rfl

end Rule

/-! ## Captures and copies -/

/-- Filters that have the same values where some directives search give
them the same probes. -/
theorem Probe.build_congr {filters table : FilterTable} {directives : List SearchDirective}
    (h : ∀ d ∈ directives, filters.values d.searchFrom = table.values d.searchFrom) :
    build filters directives = build table directives := by
  have hextend (probes : List Probe) :
      directives.foldl (extendAll filters) probes =
        directives.foldl (extendAll table) probes :=
    List.foldl_ext _ _ probes fun probes d hd => by rw [extendAll, extendAll, h d hd]
  rw [build, build, hextend]

namespace Rule

variable {rule : Rule}

/-- What the rule captures under a name when it works on some records. -/
def captured? (rule : Rule) (records : List Record) (name : String) : Option (List Value) :=
  if records.isEmpty then none
  else
    match rule.activeFilter? with
    | none => none
    | some f =>
      if f.name = name then some (distinct (records.map (FilterTable.reading f.key)))
      else none

theorem captured?_eq_none {name : String} (h : ¬ rule.Captures name) (records : List Record) :
    rule.captured? records name = none := by
  unfold captured?
  cases hfilter : rule.activeFilter? with
  | none => simp
  | some f =>
    have hname : f.name ≠ name := fun heq => h ⟨f, hfilter, heq⟩
    simp [hname]

/-- Under each name a rule leaves what it captures, and where it captures
nothing, what was there. -/
theorem values_filtersAfter (rule : Rule) (context : RunContext) (p : Progress)
    (name : String) :
    (rule.filtersAfter context p).values name =
      (rule.captured? (rule.selection context p.data) name).getD (p.filters.values name) := by
  unfold filtersAfter captured? captureFilter
  by_cases hempty : (rule.selection context p.data).isEmpty = true
  · simp [hempty]
  · cases rule.activeFilter? with
    | none => simp
    | some f =>
      by_cases hname : f.name = name <;> simp [hempty, hname, FilterTable.values_capture]

/-- A rule makes the same copies with filters that have the same values where it searches. -/
theorem writes_congr {filters table : FilterTable}
    (h : ∀ name, rule.SearchesFrom name → filters.values name = table.values name)
    (records : List Record) : rule.writes filters records = rule.writes table records := by
  have hsplit : (rule.splitSearch.flatMap fun entry => entry.writes filters records) =
      rule.splitSearch.flatMap fun entry => entry.writes table records := by
    refine List.flatMap_congr fun entry hentry => ?_
    have hprobes :
        Probe.build filters entry.directives = Probe.build table entry.directives :=
      Probe.build_congr fun d hd => h d.searchFrom ⟨entry, hentry, d, hd, rfl⟩
    rw [SplitSearch.writes, SplitSearch.writes, hprobes]
  simp only [writes, hsplit]

end Rule

/-! ## Steps -/

namespace Progress

/-- What a rule leaves that does not end the run. -/
def after (p : Progress) (context : RunContext) (rule : Rule) (issue : Option Incident) :
    Progress :=
  ⟨applyWrites p.data (rule.writesFrom context p), rule.filtersAfter context p,
    p.issues ++ issue.toList⟩

/-- A step goes through when its rule finds candidates, with an issue or without. -/
theorem step_eq_ok_iff {p q : Progress} {context : RunContext} {index : Nat} {rule : Rule} :
    p.step context index rule = .ok q ↔
      ∃ records issue, rule.candidates context index p.data = .ok (records, issue) ∧
        q = p.after context rule issue := by
  have hafter {records : List Record} {issue : Option Incident}
      (hfound : rule.candidates context index p.data = .ok (records, issue)) :
      p.step context index rule = .ok (p.after context rule issue) := by
    have hstep :
        p.step context index rule = .ok ((p.withIssue? issue).absorb rule records) := by
      cases issue <;> simp [step, hfound, withIssue?]
    obtain ⟨hdata, hfilters⟩ := step_fields hstep
    have hissues :
        ((p.withIssue? issue).absorb rule records).issues = p.issues ++ issue.toList := by
      rw [issues_absorb, issues_withIssue?]
    rw [hstep, after, ← hdata, ← hfilters, ← hissues]
  constructor
  · intro h
    obtain ⟨records, issue, hfound, -⟩ := step_eq_ok h
    rw [hafter hfound] at h
    injection h with h
    exact ⟨records, issue, hfound, h.symm⟩
  · rintro ⟨records, issue, hfound, rfl⟩
    exact hafter hfound

/-- Two runs have gathered the same, but for issues and the order of captures. -/
structure Agree (p q : Progress) : Prop where
  data : p.data = q.data
  filters : ∀ name, p.filters.values name = q.filters.values name

theorem Agree.after {p q : Progress} (h : p.Agree q) (context : RunContext) (rule : Rule)
    (a b : Option Incident) : (p.after context rule a).Agree (q.after context rule b) := by
  have hfilters (name : String) : (rule.filtersAfter context p).values name =
      (rule.filtersAfter context q).values name := by
    rw [Rule.values_filtersAfter, Rule.values_filtersAfter, h.data, h.filters]
  have hwrites : rule.writesFrom context p = rule.writesFrom context q := by
    rw [Rule.writesFrom, Rule.writesFrom, h.data]
    exact Rule.writes_congr (fun name _ => hfilters name) _
  refine ⟨?_, hfilters⟩
  simp only [Progress.after, h.data, hwrites]

end Progress

/-! ## Runs -/

/-- Runs that have gathered the same go on alike: they raise the same issues and agree in the
end. The induction is on the rules; the position and what has been gathered vary with it. -/
theorem Extraction.run_agree {context : RunContext} {rules : List Rule} {index : Nat}
    {p q p' : Progress} (h : p.Agree q) (hrun : run context index rules p = .ok p') :
    ∃ q' raised, run context index rules q = .ok q' ∧ p'.Agree q' ∧
      p'.issues = p.issues ++ raised ∧ q'.issues = q.issues ++ raised := by
  induction rules generalizing index p q with
  | nil =>
    cases hrun
    exact ⟨q, [], rfl, h, (List.append_nil _).symm, (List.append_nil _).symm⟩
  | cons rule rest ih =>
    obtain ⟨r, hstep, hrest⟩ := run_cons_eq_ok_iff.1 hrun
    obtain ⟨records, issue, hfound, rfl⟩ := Progress.step_eq_ok_iff.1 hstep
    have hstep' : q.step context index rule = .ok (q.after context rule issue) := by
      rw [h.data] at hfound
      exact Progress.step_eq_ok_iff.2 ⟨records, issue, hfound, rfl⟩
    obtain ⟨q', raised, hrun', hagree, hp, hq⟩ := ih (h.after context rule issue issue) hrest
    refine ⟨q', issue.toList ++ raised, run_cons_eq_ok_iff.2 ⟨_, hstep', hrun'⟩,
      hagree, ?_, ?_⟩
    · rw [hp, Progress.after, List.append_assoc]
    · rw [hq, Progress.after, List.append_assoc]

end FabricFootprint
