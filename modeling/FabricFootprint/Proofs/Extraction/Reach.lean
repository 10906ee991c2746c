import FabricFootprint.Proofs.Extraction.Run
import Mathlib.Data.List.Induction

/-!
FabricFootprint.Proofs.Extraction.Reach — what a run has gathered when it comes to a rule.

* `Reaches` — a run from the beginning gets through the rules before a position; the progress
  is what they leave to the rule there.
* `exists_reaches_concat_iff` — what a run has reached when one more rule is put at the end.
* `Extraction.run_induction` — what holds before the first rule, and is kept by one more rule,
  holds of every run from the beginning.
* `Rule.selection` — the records that a rule works on, given the data written so far.
  It is the list in `Rule.candidates`, without the issue; `Rule.mem_select_iff` says
  what a match step looks for.
* `Extraction.exists_write` — every field of the data is a write of some rule that the run has
  reached.
-/

namespace FabricFootprint

/-! ## Runs from the beginning -/

/-- A run from the beginning gets through the rules before a position and leaves
`p` to the rule there. -/
def Reaches (context : RunContext) (rules : List Rule) (i : Nat) (p : Progress) : Prop :=
  Extraction.run context 0 (rules.take i) Progress.start = .ok p

theorem reaches_append_iff {context : RunContext} {before after : List Rule} {i : Nat}
    {p : Progress} (hi : i ≤ before.length) :
    Reaches context (before ++ after) i p ↔ Reaches context before i p := by
  rw [Reaches, Reaches, List.take_append_of_le_length hi]

theorem reaches_length_iff {context : RunContext} {rules : List Rule} {p : Progress} :
    Reaches context rules rules.length p ↔
      Extraction.run context 0 rules Progress.start = .ok p := by
  rw [Reaches, List.take_length]

/-- When a run gets through some rules, then with one more rule it has reached what it reached
before, and the rule at the end. -/
theorem exists_reaches_concat_iff {context : RunContext} {before : List Rule} {p : Progress}
    (h : Extraction.run context 0 before Progress.start = .ok p) (rule : Rule)
    {P : Nat → Rule → Progress → Prop} :
    (∃ i other q, (before ++ [rule])[i]? = some other ∧
        Reaches context (before ++ [rule]) i q ∧ P i other q) ↔
      (∃ i other q, before[i]? = some other ∧ Reaches context before i q ∧ P i other q) ∨
        P before.length rule p := by
  have hend : Reaches context (before ++ [rule]) before.length p :=
    (reaches_append_iff (Nat.le_refl _)).2 (reaches_length_iff.2 h)
  constructor
  · rintro ⟨i, other, q, hget, hreach, hP⟩
    rcases Nat.lt_or_ge i before.length with hi | hi
    · rw [List.getElem?_append_left hi] at hget
      exact .inl ⟨i, other, q, hget, (reaches_append_iff (Nat.le_of_lt hi)).1 hreach, hP⟩
    · have hlast : i = before.length := by
        have hlt := (List.getElem?_eq_some_iff.1 hget).1
        rw [List.length_append, List.length_singleton] at hlt
        omega
      subst hlast
      have hrule : rule = other := by simpa using hget
      have hdata : Except.ok q = Except.ok p := hreach.symm.trans hend
      cases hdata
      subst hrule
      exact .inr hP
  · rintro (⟨i, other, q, hget, hreach, hP⟩ | hP)
    · have hi : i < before.length := (List.getElem?_eq_some_iff.1 hget).1
      exact ⟨i, other, q, by rw [List.getElem?_append_left hi, hget],
        (reaches_append_iff (Nat.le_of_lt hi)).2 hreach, hP⟩
    · exact ⟨before.length, rule, p, by simp, hend, hP⟩

namespace Extraction

/-- A run gets through one more rule when it gets to that rule and the
rule does not end it. -/
theorem run_concat_eq_ok_iff {context : RunContext} {before : List Rule} {rule : Rule}
    {q : Progress} :
    run context 0 (before ++ [rule]) Progress.start = .ok q ↔
      ∃ p, run context 0 before Progress.start = .ok p ∧
        p.step context before.length rule = .ok q := by
  rw [run_append]
  cases run context 0 before Progress.start with
  | error e => simp
  | ok p =>
    simp only [Nat.zero_add, run_cons, Except.ok.injEq, exists_eq_left']
    cases p.step context before.length rule <;> simp [run]

/-- Induction along a run from the beginning: `motive` relates the rules that have run to what
they have gathered. -/
theorem run_induction {context : RunContext} {motive : List Rule → Progress → Prop}
    (start : motive [] Progress.start)
    (step : ∀ before rule p q, run context 0 before Progress.start = .ok p →
      p.step context before.length rule = .ok q → motive before p →
      motive (before ++ [rule]) q)
    {rules : List Rule} {p : Progress} (h : run context 0 rules Progress.start = .ok p) :
    motive rules p := by
  induction rules using List.reverseRecOn generalizing p with
  | nil =>
    cases h
    exact start
  | append_singleton before rule ih =>
    obtain ⟨r, hrun, hstep⟩ := run_concat_eq_ok_iff.1 h
    exact step before rule r p hrun hstep (ih hrun)

end Extraction

theorem extract_eq_ok_iff {key : String} {device : DeviceChunks} {rules : RuleSet}
    {registry : ConversionRegistry} {x : Extraction} :
    extract key device rules registry = .ok x ↔
      ∃ p, Reaches ⟨key, device, registry⟩ rules.rules rules.rules.length p ∧
        x = ⟨key, p.data, p.issues⟩ := by
  simp only [reaches_length_iff]
  unfold extract
  cases Extraction.run ⟨key, device, registry⟩ 0 rules.rules Progress.start with
  | error e => simp
  | ok p => simp [eq_comm]

/-! ## Selections -/

namespace Rule

/-- The records that a rule works on, given the data written so far: those that fit its seed,
or all of the chunk when the rule has no match step. -/
def selection (rule : Rule) (context : RunContext) (data : Record) : List Record :=
  let chunk := context.device.records rule.chunk
  if rule.hasMatchStep then
    match rule.seed context.registry context.key data with
    | .found seed => rule.select seed chunk
    | _ => []
  else chunk

/-- A record fits a seed: its field holds the seed, or a text where one of the two texts
contains the other. A field that is absent or null fits nothing. -/
def Fits (rule : Rule) (seed : Value) (record : Record) : Prop :=
  ∃ v, record.get? rule.destName = some v ∧ v ≠ .null ∧
    match rule.matchType with
    | .full => v = seed
    | .containment => ∃ a b, v = .str a ∧ seed = .str b ∧
        (a.toList <:+: b.toList ∨ b.toList <:+: a.toList)
    | .noMatch => True

theorem judgeValue_eq_selected_iff {matchType : MatchType} {seed v : Value} :
    judgeValue matchType seed v = .selected ↔
      match matchType with
      | .full => v = seed
      | .containment => ∃ a b, v = .str a ∧ seed = .str b ∧
          (a.toList <:+: b.toList ∨ b.toList <:+: a.toList)
      | .noMatch => True := by
  cases matchType with
  | full =>
    by_cases htype : v.type? = seed.type?
    · simp [judgeValue, htype]
    · have hne : v ≠ seed := fun h => htype (congrArg Value.type? h)
      simp [judgeValue, htype, hne]
  | containment =>
    cases v with
    | str a =>
      cases seed with
      | str b =>
        have hoverlaps :
            overlaps a b = true ↔ a.toList <:+: b.toList ∨ b.toList <:+: a.toList := by
          rw [overlaps, Bool.or_eq_true, Text.contains_iff, Text.contains_iff, or_comm]
        simp [judgeValue, Value.str?, ← hoverlaps]
      | _ => simp [judgeValue, Value.str?]
    | _ => simp [judgeValue, Value.str?]
  | noMatch => simp [judgeValue]

theorem judge_eq_selected_iff {rule : Rule} {seed : Value} {record : Record} :
    rule.judge seed record = .selected ↔ rule.Fits seed record := by
  unfold judge Fits
  cases hfield : Value.ofField? record rule.destName with
  | none =>
    simp only [reduceCtorEq, false_iff, not_exists]
    intro v hv
    have hsome := Value.ofField?_eq_some_iff.2 ⟨hv.1, hv.2.1⟩
    exact nomatch hfield.symm.trans hsome
  | some v =>
    obtain ⟨hget, hnull⟩ := Value.ofField?_eq_some_iff.1 hfield
    simp only [judgeValue_eq_selected_iff, hget, Option.some.injEq, exists_eq_left', hnull,
      ne_eq, not_false_eq_true, true_and]

theorem mem_select_iff {rule : Rule} {seed : Value} {chunk : List Record} {record : Record} :
    record ∈ rule.select seed chunk ↔ record ∈ chunk ∧ rule.Fits seed record := by
  rw [select, List.mem_filter, decide_eq_true_iff, judge_eq_selected_iff]

/-- A seed that is no text selects nothing where texts are compared. -/
theorem select_eq_nil {rule : Rule} {seed : Value} (hmatch : rule.matchType = .containment)
    (hseed : seed.str? = none) (chunk : List Record) : rule.select seed chunk = [] := by
  rw [List.eq_nil_iff_forall_not_mem]
  intro record hrecord
  obtain ⟨-, v, -, -, hfits⟩ := mem_select_iff.1 hrecord
  rw [hmatch] at hfits
  obtain ⟨a, b, -, rfl, -⟩ := hfits
  exact nomatch hseed

theorem fst_selectWithIssue {context : RunContext} {index : Nat} {rule : Rule} {seed : Value}
    {chunk : List Record} :
    (rule.selectWithIssue context index seed chunk).1 = rule.select seed chunk := by
  rw [selectWithIssue_eq]
  split
  · next h => exact (select_eq_nil h.1 h.2 chunk).symm
  · rfl

/-- The candidates of a rule are its selection, whatever issue comes with them. -/
theorem eq_selection_of_candidates {context : RunContext} {index : Nat} {rule : Rule}
    {data : Record} {records : List Record} {issue : Option Incident}
    (h : rule.candidates context index data = .ok (records, issue)) :
    records = rule.selection context data := by
  unfold candidates at h
  unfold selection
  by_cases hmatch : rule.hasMatchStep = true
  · simp only [hmatch, ↓reduceIte] at h ⊢
    cases hseed : rule.seed context.registry context.key data with
    | absent =>
      rw [hseed] at h
      cases h
      rfl
    | found seed =>
      rw [hseed] at h
      injection h with h
      exact (congrArg Prod.fst h).symm.trans fst_selectWithIssue
    | refused fault =>
      rw [hseed] at h
      cases h
      rfl
    | unregistered fault =>
      rw [hseed] at h
      exact nomatch h
  · simp only [hmatch] at h ⊢
    cases h
    rfl

/-- A rule selects a record: without a match step it selects every record, else its seed has
been found and the record fits it. -/
def Selects (rule : Rule) (context : RunContext) (data : Record) (record : Record) : Prop :=
  rule.hasMatchStep = true →
    ∃ seed, rule.seed context.registry context.key data = .found seed ∧ rule.Fits seed record

theorem mem_selection_iff {rule : Rule} {context : RunContext} {data record : Record} :
    record ∈ rule.selection context data ↔
      record ∈ context.device.records rule.chunk ∧ rule.Selects context data record := by
  unfold selection Selects
  by_cases hmatch : rule.hasMatchStep = true
  · cases hseed : rule.seed context.registry context.key data <;>
      simp [hmatch, mem_select_iff]
  · simp [hmatch]

/-- The filters that a rule leaves; it captures nothing when it works on no record. -/
def filtersAfter (rule : Rule) (context : RunContext) (p : Progress) : FilterTable :=
  if (rule.selection context p.data).isEmpty then p.filters
  else rule.captureFilter p.filters (rule.selection context p.data)

/-- The copies that a rule makes when a run reaches it with `p`. -/
def writesFrom (rule : Rule) (context : RunContext) (p : Progress) : List Write :=
  rule.writes (rule.filtersAfter context p) (rule.selection context p.data)

theorem writes_nil (rule : Rule) (filters : FilterTable) : rule.writes filters [] = [] := by
  have hsplit : (rule.splitSearch.flatMap fun entry => entry.writes filters []) = [] := by
    rw [List.flatMap_eq_nil_iff]
    intro entry _
    rfl
  rw [writes, hsplit]
  cases rule.combineBy <;> rfl

end Rule

/-! ## Data -/

/-- What a step leaves: the data after the copies of its rule, and the
filters after its capture. -/
theorem Progress.step_fields {p q : Progress} {context : RunContext} {index : Nat}
    {rule : Rule} (h : p.step context index rule = .ok q) :
    q.data = applyWrites p.data (rule.writesFrom context p) ∧
      q.filters = rule.filtersAfter context p := by
  obtain ⟨records, issue, hfound, rfl⟩ := step_eq_ok h
  have hrecords := Rule.eq_selection_of_candidates hfound
  have hdata : (p.withIssue? issue).data = p.data := by cases issue <;> rfl
  have hfilters : (p.withIssue? issue).filters = p.filters := by cases issue <;> rfl
  unfold absorb Rule.writesFrom Rule.filtersAfter
  rw [← hrecords]
  by_cases hempty : records.isEmpty = true
  · have hnil : records = [] := List.isEmpty_iff.1 hempty
    simp [hnil, hdata, hfilters, Rule.writes_nil]
  · simp [hempty, hdata, hfilters]

theorem mem_of_lastWrite? {writes : List Write} {name : String} {v : Value}
    (h : lastWrite? writes name = some v) : (name, v) ∈ writes := by
  obtain ⟨w, hfind, rfl⟩ := Option.map_eq_some_iff.1 h
  have hname : w.1 = name := by simpa using List.find?_some hfind
  have hmem := List.mem_reverse.1 (List.mem_of_find?_eq_some hfind)
  rwa [← hname]

/-- Every field of the data after a run is a copy that some rule of the run made. -/
theorem Extraction.exists_write {context : RunContext} {rules : List Rule} {p : Progress}
    (h : run context 0 rules Progress.start = .ok p) {field : String} {v : Value}
    (hv : p.data.get? field = some v) :
    ∃ i rule r, rules[i]? = some rule ∧ Reaches context rules i r ∧
      (field, v) ∈ rule.writesFrom context r := by
  refine run_induction (motive := fun rules p => ∀ v, p.data.get? field = some v →
    ∃ i rule r, rules[i]? = some rule ∧ Reaches context rules i r ∧
      (field, v) ∈ rule.writesFrom context r) ?start ?step h v hv
  case start =>
    intro v hv
    exact nomatch hv
  case step =>
    intro before rule p q hrun hstep ih v hv
    obtain ⟨hdata, -⟩ := Progress.step_fields hstep
    rw [hdata, get?_applyWrites] at hv
    refine (exists_reaches_concat_iff hrun rule).2 ?_
    cases hlast : lastWrite? (rule.writesFrom context p) field with
    | some w =>
      rw [hlast] at hv
      cases hv
      exact .inr (mem_of_lastWrite? hlast)
    | none =>
      rw [hlast] at hv
      exact .inl (ih v hv)

end FabricFootprint
