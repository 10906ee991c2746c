import FabricFootprint.Proofs.Rule.Acceptance

/-!
FabricFootprint.Proofs.Rule.Rejection — what the rejection of a rule list says about its
rules.

* `RuleSet.ofRules_eq_error_iff` — a list is rejected for one of its rules: the list before
  this rule is accepted on its own, and the fault is that of the rule.
* `Rule.check_eq_orderViolation` — an order violation names a field that the match step of the
  rule reads, and that no rule before it can write.
-/

namespace FabricFootprint

theorem bind_eq_error_iff {α β : Type} {x : Except Fault α} {f : α → Except Fault β}
    {fault : Fault} :
    x >>= f = .error fault ↔ x = .error fault ∨ ∃ a, x = .ok a ∧ f a = .error fault := by
  cases x with
  | error other => simp [bind, Except.bind]
  | ok a => simp [bind, Except.bind]

/-- Two checks in a row fail with the fault of the first one, or when that one passes with the
fault of the second one. -/
theorem seq_eq_error_iff {a b : Except Fault Unit} {fault : Fault} :
    (a >>= fun _ => b) = .error fault ↔ a = .error fault ∨ a = .ok () ∧ b = .error fault := by
  rw [bind_eq_error_iff]
  exact or_congr_right ⟨fun ⟨_, ha, hb⟩ => ⟨ha, hb⟩, fun ⟨ha, hb⟩ => ⟨(), ha, hb⟩⟩

/-! ## Rule lists -/

namespace RuleSet

/-- A list is rejected for a rule that does not pass against the rules before it, all
of which pass. The induction is on the rules; what is written and captured before
them varies with it. -/
theorem checkFrom_eq_error_iff {registry : ConversionRegistry} {known : Option (List String)}
    {written : WrittenFields} {captured : List String} {index : Nat} {rules : List Rule}
    {fault : Fault} :
    checkFrom registry known written captured index rules = .error fault ↔
      ∃ i rule, rules[i]? = some rule ∧
        checkFrom registry known written captured index (rules.take i) = .ok () ∧
        rule.check registry known ((rules.take i).foldl WrittenFields.record written)
          (capturedAfter captured (rules.take i)) (index + i) = .error fault := by
  induction rules generalizing written captured index with
  | nil => simp [checkFrom]
  | cons rule rest ih =>
    rw [checkFrom, seq_eq_error_iff, ih]
    constructor
    · rintro (hfirst | ⟨hfirst, i, other, hget, hbefore, hcheck⟩)
      · exact ⟨0, rule, rfl, rfl, hfirst⟩
      · have hpos : index + 1 + i = index + (i + 1) := by omega
        rw [hpos] at hcheck
        refine ⟨i + 1, other, by simpa using hget, ?_, hcheck⟩
        rw [List.take_succ_cons, checkFrom, seq_eq_ok_iff]
        exact ⟨hfirst, hbefore⟩
    · intro hyp
      obtain ⟨i, other, hget, hbefore, hcheck⟩ := hyp
      cases i with
      | zero =>
        cases hget
        exact .inl hcheck
      | succ i =>
        have hpos : index + (i + 1) = index + 1 + i := by omega
        rw [hpos] at hcheck
        rw [List.take_succ_cons, checkFrom, seq_eq_ok_iff] at hbefore
        exact .inr ⟨hbefore.1, i, other, by simpa using hget, hbefore.2, hcheck⟩

/-- A list is rejected for one of its rules, after a list that is accepted on its own. -/
theorem ofRules_eq_error_iff {registry : ConversionRegistry} {known : Option (List String)}
    {rules : List Rule} {fault : Fault} :
    ofRules registry known rules = .error fault ↔
      ∃ i rule, rules[i]? = some rule ∧
        ofRules registry known (rules.take i) = .ok ⟨rules.take i⟩ ∧
        rule.check registry known (WrittenFields.ofRules (rules.take i))
          (capturedAfter [] (rules.take i)) i = .error fault := by
  have haccepted (before : List Rule) : ofRules registry known before = .ok ⟨before⟩ ↔
      checkFrom registry known .none [] 0 before = .ok () := by
    rw [ofRules_eq_ok_iff, ← check_eq_ok_iff, check]
    simp
  have hrejected : ofRules registry known rules = .error fault ↔
      checkFrom registry known .none [] 0 rules = .error fault := by
    rw [ofRules, bind_eq_error_iff, check]
    simp [pure, Except.pure]
  rw [hrejected, checkFrom_eq_error_iff]
  simp only [Nat.zero_add, haccepted]
  rfl

end RuleSet

/-! ## Order violations -/

namespace Rule

variable {registry : ConversionRegistry} {known : Option (List String)}
  {written : WrittenFields} {captured : List String} {index i : Nat} {rule : Rule}
  {field : String}

/-- Only the look at the linkage complains about the order of rules. -/
theorem checkLinkage_eq_orderViolation
    (h : rule.checkLinkage written index = .error (.ruleOrderViolation i field)) :
    i = index ∧ rule.linkage = .indirect ∧ rule.sourceName = field ∧
      written.contains field = false := by
  unfold checkLinkage at h
  split at h
  · exact nomatch h
  · next hlinkage =>
    split at h
    · exact nomatch h
    · split at h
      · exact nomatch h
      · next hwritten =>
        cases h
        exact ⟨rfl, hlinkage, rfl, by simpa using hwritten⟩
  · exact nomatch h

theorem checkMatchStep_eq_orderViolation
    (h : rule.checkMatchStep registry written index = .error (.ruleOrderViolation i field)) :
    rule.hasMatchStep = true ∧
      rule.checkLinkage written index = .error (.ruleOrderViolation i field) := by
  unfold checkMatchStep at h
  split at h
  · exact nomatch h
  · next hmatch =>
    refine ⟨by simpa using hmatch, ?_⟩
    split at h
    · exact nomatch h
    · split at h
      · exact nomatch h
      · rcases seq_eq_error_iff.1 h with hconversion | ⟨-, hlinkage⟩
        · unfold checkConversion at hconversion
          split at hconversion
          · exact nomatch hconversion
          · split at hconversion <;> exact nomatch hconversion
        · exact hlinkage

theorem checkSplitSearch_ne_orderViolation :
    ∀ entries : List SplitSearch,
      checkSplitSearch captured index entries ≠ .error (.ruleOrderViolation i field)
  | [], h => nomatch h
  | entry :: rest, h => by
      rcases seq_eq_error_iff.1 h with hentry | ⟨-, hrest⟩
      · unfold checkDirectives at hentry
        split at hentry
        · exact nomatch hentry
        · split at hentry <;> exact nomatch hentry
      · exact checkSplitSearch_ne_orderViolation rest hrest

/-- An order violation is about the match step of the rule itself: its seed is a field that
cannot have been written. -/
theorem check_eq_orderViolation
    (h : rule.check registry known written captured index =
      .error (.ruleOrderViolation i field)) :
    i = index ∧ rule.hasMatchStep = true ∧ rule.linkage = .indirect ∧
      rule.sourceName = field ∧ written.contains field = false := by
  unfold check at h
  rcases seq_eq_error_iff.1 h with hchunk | ⟨-, h⟩
  · unfold checkChunk at hchunk
    split at hchunk
    · exact nomatch hchunk
    · split at hchunk <;> exact nomatch hchunk
  · rcases seq_eq_error_iff.1 h with hmatch | ⟨-, h⟩
    · obtain ⟨hstep, hlinkage⟩ := checkMatchStep_eq_orderViolation hmatch
      obtain ⟨hindex, hrest⟩ := checkLinkage_eq_orderViolation hlinkage
      exact ⟨hindex, hstep, hrest⟩
    · rcases seq_eq_error_iff.1 h with hsplit | ⟨-, hcombine⟩
      · exact absurd hsplit (checkSplitSearch_ne_orderViolation rule.splitSearch)
      · unfold checkCombineBy at hcombine
        split at hcombine <;> exact nomatch hcombine

end Rule

end FabricFootprint
