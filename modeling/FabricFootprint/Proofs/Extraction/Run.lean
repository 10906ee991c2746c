import FabricFootprint.Proofs.Extraction.Step

/-!
FabricFootprint.Proofs.Extraction.Run — runs, cut into the rules before a
position and the rest.

* `Extraction.run_append` — a run goes on where the run of the first rules ended.
* `Extraction.run_eq_error_iff` — a run fails exactly when some rule fails on what the rules
  before it have gathered.
* `StopsAt` — the same for a run from the beginning, in terms of what `Rule.Stops` asks of the
  rule. A run stops at one position at most, since the rules after it are not reached.
-/

namespace FabricFootprint

namespace Extraction

theorem run_cons {context : RunContext} {index : Nat} {rule : Rule} {rest : List Rule}
    {p : Progress} :
    run context index (rule :: rest) p =
      match p.step context index rule with
      | .error fault => .error (context.locate index (Incident.ofFault fault))
      | .ok q => run context (index + 1) rest q := rfl

theorem run_append {context : RunContext} :
    ∀ (before after : List Rule) (index : Nat) (p : Progress),
      run context index (before ++ after) p =
        match run context index before p with
        | .error e => .error e
        | .ok q => run context (index + before.length) after q
  | [], after, index, p => by simp [run]
  | rule :: before, after, index, p => by
      rw [List.cons_append, run_cons, run_cons]
      cases p.step context index rule with
      | error fault => rfl
      | ok q =>
        have hlen : index + (rule :: before).length = index + 1 + before.length := by
          simp only [List.length_cons]
          omega
        simp only [hlen]
        exact run_append before after (index + 1) q

theorem run_cons_eq_ok_iff {context : RunContext} {index : Nat} {rule : Rule}
    {rest : List Rule} {p q : Progress} :
    run context index (rule :: rest) p = .ok q ↔
      ∃ r, p.step context index rule = .ok r ∧ run context (index + 1) rest r = .ok q := by
  rw [run_cons]
  cases p.step context index rule <;> simp

theorem run_append_eq_ok_iff {context : RunContext} {before after : List Rule} {index : Nat}
    {p q : Progress} :
    run context index (before ++ after) p = .ok q ↔
      ∃ r, run context index before p = .ok r ∧
        run context (index + before.length) after r = .ok q := by
  rw [run_append]
  cases run context index before p <;> simp

/-- A run fails exactly when a rule fails on what the rules before it have gathered. The
induction is on the rules; the position and the progress vary with it. -/
theorem run_eq_error_iff {context : RunContext} {rules : List Rule} {index : Nat}
    {p : Progress} {e : Incident} :
    run context index rules p = .error e ↔
      ∃ i rule q fault, rules[i]? = some rule ∧ run context index (rules.take i) p = .ok q ∧
        q.step context (index + i) rule = .error fault ∧
        e = context.locate (index + i) (Incident.ofFault fault) := by
  induction rules generalizing index p with
  | nil => simp [run]
  | cons rule rest ih =>
    rw [run_cons]
    cases hs : p.step context index rule with
    | error fault =>
      constructor
      · intro h
        injection h with h
        exact ⟨0, rule, p, fault, rfl, rfl, hs, h.symm⟩
      · intro hyp
        obtain ⟨i, rule', q, fault', hget, hrun, hstep, rfl⟩ := hyp
        cases i with
        | zero =>
          cases hget
          cases hrun
          rw [Nat.add_zero, hs] at hstep
          cases hstep
          rfl
        | succ i => simp [List.take_succ_cons, run_cons, hs] at hrun
    | ok r =>
      simp only [ih]
      constructor
      · intro hyp
        obtain ⟨i, rule', q, fault, hget, hrun, hstep, rfl⟩ := hyp
        have hpos : index + 1 + i = index + (i + 1) := by omega
        rw [hpos] at hstep ⊢
        refine ⟨i + 1, rule', q, fault, by simpa using hget, ?_, hstep, rfl⟩
        simp only [List.take_succ_cons, run_cons, hs, hrun]
      · intro hyp
        obtain ⟨i, rule', q, fault, hget, hrun, hstep, rfl⟩ := hyp
        cases i with
        | zero =>
          cases hget
          cases hrun
          exact nomatch hs.symm.trans hstep
        | succ i =>
          have hpos : index + (i + 1) = index + 1 + i := by omega
          rw [hpos] at hstep ⊢
          simp only [List.take_succ_cons, run_cons, hs] at hrun
          exact ⟨i, rule', q, fault, by simpa using hget, hrun, hstep, rfl⟩

end Extraction

/-! ## Where a run stops -/

/-- A run from the beginning stops at a position: the rules before it run through, and on
the data they leave the rule there has a seed for a conversion from `source` to `target`
that nobody registered. -/
def StopsAt (context : RunContext) (rules : List Rule) (i : Nat) (source target : ValueType) :
    Prop :=
  ∃ rule p, rules[i]? = some rule ∧
    Extraction.run context 0 (rules.take i) Progress.start = .ok p ∧
    rule.Stops context.registry p.data source target

/-- Whoever stops at a position does not get past it. -/
theorem StopsAt.run_take_succ {context : RunContext} {rules : List Rule} {i : Nat}
    {source target : ValueType} (h : StopsAt context rules i source target) (n : Nat)
    (hn : i < n) :
    ¬ ∃ p, Extraction.run context 0 (rules.take n) Progress.start = .ok p := by
  obtain ⟨rule, q, hget, hrun, hstops⟩ := h
  have hfault : q.step context (0 + i) rule =
      .error (.unregisteredConversion (0 + i) source target) :=
    Progress.step_eq_error_iff.2 ⟨source, target, hstops, rfl⟩
  have herror : ∃ e, Extraction.run context 0 (rules.take n) Progress.start = .error e := by
    refine ⟨_, Extraction.run_eq_error_iff.2 ⟨i, rule, q, _, ?_, ?_, hfault, rfl⟩⟩
    · rw [List.getElem?_take_of_lt hn]
      exact hget
    · rw [List.take_take, Nat.min_eq_left (Nat.le_of_lt hn)]
      exact hrun
  obtain ⟨e, he⟩ := herror
  rintro ⟨p, hp⟩
  exact nomatch he.symm.trans hp

/-- A run stops at one position at most. -/
theorem StopsAt.unique {context : RunContext} {rules : List Rule} {i j : Nat}
    {s₁ t₁ s₂ t₂ : ValueType} (hi : StopsAt context rules i s₁ t₁)
    (hj : StopsAt context rules j s₂ t₂) : i = j := by
  have reached {k : Nat} {s t : ValueType} (h : StopsAt context rules k s t) :
      ∃ p, Extraction.run context 0 (rules.take k) Progress.start = .ok p := by
    obtain ⟨_, p, _, hrun, _⟩ := h
    exact ⟨p, hrun⟩
  rcases Nat.lt_trichotomy i j with h | h | h
  · exact absurd (reached hj) (hi.run_take_succ j h)
  · exact h
  · exact absurd (reached hi) (hj.run_take_succ i h)

theorem extract_eq_error_iff_run {key : String} {device : DeviceChunks} {rules : RuleSet}
    {registry : ConversionRegistry} {e : Incident} :
    extract key device rules registry = .error e ↔
      Extraction.run ⟨key, device, registry⟩ 0 rules.rules Progress.start = .error e := by
  unfold extract
  cases Extraction.run ⟨key, device, registry⟩ 0 rules.rules Progress.start <;> simp

/-- An extraction fails exactly when its run stops somewhere, and reports the position and the
pair. -/
theorem extract_eq_error_iff {key : String} {device : DeviceChunks} {rules : RuleSet}
    {registry : ConversionRegistry} {e : Incident} :
    extract key device rules registry = .error e ↔
      ∃ i source target, StopsAt ⟨key, device, registry⟩ rules.rules i source target ∧
        e = (Incident.ofFault (.unregisteredConversion i source target)).located
          "extract" device.name key i := by
  rw [extract_eq_error_iff_run, Extraction.run_eq_error_iff]
  simp only [Nat.zero_add, Progress.step_eq_error_iff, StopsAt, RunContext.locate]
  constructor
  · intro hyp
    obtain ⟨i, rule, q, fault, hget, hq, ⟨source, target, hstops, rfl⟩, rfl⟩ := hyp
    exact ⟨i, source, target, ⟨rule, q, hget, hq, hstops⟩, rfl⟩
  · intro hyp
    obtain ⟨i, source, target, ⟨rule, q, hget, hq, hstops⟩, rfl⟩ := hyp
    exact ⟨i, rule, q, _, hget, hq, ⟨source, target, hstops, rfl⟩, rfl⟩

end FabricFootprint
