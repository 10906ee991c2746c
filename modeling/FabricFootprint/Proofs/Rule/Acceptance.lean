import FabricFootprint.Rule.Set

/-!
FabricFootprint.Proofs.Rule.Acceptance — what the acceptance of a rule
list says about its rules.

* `RuleSet.checkFrom_eq_ok_iff` — a list passes exactly when each rule passes its own checks,
  against the fields that the rules before it can write and the filters that they capture.
* `RuleSet.ofRules_eq_ok_iff` — the same for a whole list, which is kept as it was.
* `RuleSet.isRegistered_of_accepted` — a conversion that an accepted match step
  declares is registered.
-/

namespace FabricFootprint

/-- A step after another one is reached only when the first one passes. -/
theorem bind_eq_ok_iff {α β : Type} {x : Except Fault α} {f : α → Except Fault β} {b : β} :
    x >>= f = .ok b ↔ ∃ a, x = .ok a ∧ f a = .ok b := by
  cases x with
  | error fault => simp [bind, Except.bind]
  | ok a => simp [bind, Except.bind]

/-- Two checks in a row pass exactly when both pass. -/
theorem seq_eq_ok_iff {a b : Except Fault Unit} :
    (a >>= fun _ => b) = .ok () ↔ a = .ok () ∧ b = .ok () := by
  rw [bind_eq_ok_iff]
  exact ⟨fun ⟨_, ha, hb⟩ => ⟨ha, hb⟩, fun ⟨ha, hb⟩ => ⟨(), ha, hb⟩⟩

/-! ## One rule -/

namespace Rule

theorem check_eq_ok_iff {registry : ConversionRegistry} {known : Option (List String)}
    {written : WrittenFields} {captured : List String} {index : Nat} {rule : Rule} :
    rule.check registry known written captured index = .ok () ↔
      rule.checkChunk known index = .ok () ∧
        rule.checkMatchStep registry written index = .ok () ∧
        checkSplitSearch (rule.capturedWith captured) index rule.splitSearch = .ok () ∧
        rule.checkCombineBy index = .ok () := by
  unfold check
  rw [seq_eq_ok_iff, seq_eq_ok_iff, seq_eq_ok_iff]

theorem checkConversion_eq_ok_iff {registry : ConversionRegistry} {index : Nat}
    {rule : Rule} :
    rule.checkConversion registry index = .ok () ↔
      ∀ source target, rule.conversion? = some (source, target) →
        registry.isRegistered source target = true := by
  unfold checkConversion
  cases rule.conversion? with
  | none => simp
  | some pair =>
    obtain ⟨source, target⟩ := pair
    by_cases h : registry.isRegistered source target = true <;> simp [h]

/-- A match step passes when it names a field to compare, compares texts where it has to,
declares a registered conversion if any, and has a seed that can have been written. -/
theorem checkMatchStep_eq_ok_iff {registry : ConversionRegistry} {written : WrittenFields}
    {index : Nat} {rule : Rule} (hmatch : rule.hasMatchStep = true) :
    rule.checkMatchStep registry written index = .ok () ↔
      rule.destName.isEmpty = false ∧
        ¬ (rule.matchType = .containment ∧ rule.destType.any (· != .string) = true) ∧
        rule.checkConversion registry index = .ok () ∧
        rule.checkLinkage written index = .ok () := by
  unfold checkMatchStep
  by_cases hdest : rule.destName.isEmpty = true
  · simp [hmatch, hdest]
  · by_cases htext : rule.matchType = .containment ∧ rule.destType.any (· != .string) = true
    · simp [hmatch, hdest, htext]
    · rw [if_neg (by simp [hmatch]), if_neg hdest, if_neg htext, seq_eq_ok_iff]
      simp [hdest, htext]

end Rule

/-! ## Rule lists -/

namespace RuleSet

/-- The filters that a list of rules captures, after those in `captured`. -/
def capturedAfter (captured : List String) (rules : List Rule) : List String :=
  rules.foldl (fun names rule => rule.capturedWith names) captured

/-- A list passes exactly when each of its rules passes against what the rules before it do.
The induction is on the rules; what is written and captured before them varies with it. -/
theorem checkFrom_eq_ok_iff {registry : ConversionRegistry} {known : Option (List String)}
    {written : WrittenFields} {captured : List String} {index : Nat} {rules : List Rule} :
    checkFrom registry known written captured index rules = .ok () ↔
      ∀ (i : Nat) (rule : Rule), rules[i]? = some rule →
        rule.check registry known ((rules.take i).foldl WrittenFields.record written)
          (capturedAfter captured (rules.take i)) (index + i) = .ok () := by
  induction rules generalizing written captured index with
  | nil => simp [checkFrom]
  | cons rule rest ih =>
    rw [checkFrom, seq_eq_ok_iff, ih]
    constructor
    · rintro ⟨hfirst, hrest⟩ i other hget
      cases i with
      | zero =>
        cases hget
        exact hfirst
      | succ i =>
        have hpos : index + (i + 1) = index + 1 + i := by omega
        rw [hpos]
        exact hrest i other (by simpa using hget)
    · intro h
      refine ⟨h 0 rule rfl, fun i other hget => ?_⟩
      have hpos : index + 1 + i = index + (i + 1) := by omega
      rw [hpos]
      exact h (i + 1) other (by simpa using hget)

/-- Every rule passes its checks, against the rules before it. -/
def EachPasses (registry : ConversionRegistry) (known : Option (List String))
    (rules : List Rule) : Prop :=
  ∀ (i : Nat) (rule : Rule), rules[i]? = some rule →
    rule.check registry known (WrittenFields.ofRules (rules.take i))
      (capturedAfter [] (rules.take i)) i = .ok ()

theorem check_eq_ok_iff {registry : ConversionRegistry} {known : Option (List String)}
    {rules : List Rule} :
    check registry known rules = .ok () ↔ EachPasses registry known rules := by
  have h : checkFrom registry known .none [] 0 rules = .ok () ↔ _ := checkFrom_eq_ok_iff
  simp only [Nat.zero_add] at h
  exact h

/-- A rule list is accepted exactly when each of its rules passes, and is kept as it was. -/
theorem ofRules_eq_ok_iff {registry : ConversionRegistry} {known : Option (List String)}
    {rules : List Rule} {set : RuleSet} :
    ofRules registry known rules = .ok set ↔
      set = ⟨rules⟩ ∧ EachPasses registry known rules := by
  rw [← check_eq_ok_iff, ofRules, bind_eq_ok_iff]
  constructor
  · intro hyp
    obtain ⟨_, hcheck, hset⟩ := hyp
    cases hset
    exact ⟨rfl, hcheck⟩
  · rintro ⟨rfl, hcheck⟩
    exact ⟨(), hcheck, rfl⟩

/-- The conversion that a match step of an accepted list declares is registered. -/
theorem isRegistered_of_accepted {registry : ConversionRegistry}
    {known : Option (List String)} {rules : List Rule} {set : RuleSet}
    (h : ofRules registry known rules = .ok set) {i : Nat} {rule : Rule}
    (hget : rules[i]? = some rule) (hmatch : rule.hasMatchStep = true)
    {source target : ValueType} (hpair : rule.conversion? = some (source, target)) :
    registry.isRegistered source target = true := by
  have hrule := (ofRules_eq_ok_iff.1 h).2 i rule hget
  have hstep := (Rule.check_eq_ok_iff.1 hrule).2.1
  have hconversion := ((Rule.checkMatchStep_eq_ok_iff hmatch).1 hstep).2.2.1
  exact Rule.checkConversion_eq_ok_iff.1 hconversion source target hpair

end RuleSet

end FabricFootprint
