import FabricFootprint.Proofs.Rule.Rejection

/-!
FabricFootprint.Proofs.Rule.Stability — what the verdict on a rule list depends on.

The checks of a rule see the rules before it and nothing after it. So a rejection is
settled by the first rule at fault, which the fault names, and an acceptance holds for
every initial part of the list too.

* `Blames` — every fault of a check names the rule at a position.
* `ConversionRegistry.Covers`, `DeclaresMore` — another registry converts more, other
  declarations leave more chunks to read. `Rule.check_mono` passes from the one to the other.
* `RuleSet.ofRules_error_stable`, `RuleSet.ofRules_initial`, `RuleSet.ofRules_mono` — the
  three ways in which a verdict stays the same.
* `ofRules_verdict_stable` — all of them together.
-/

namespace FabricFootprint

/-! ## The rule that a fault names -/

/-- Every fault of a check names the rule at a position. -/
def Blames (index : Nat) (check : Except Fault Unit) : Prop :=
  ∀ fault, check = .error fault → fault.rule? = some index

theorem blames_ok (index : Nat) : Blames index (.ok ()) := by
  intro fault h
  exact nomatch h

theorem blames_error {index : Nat} {fault : Fault} (h : fault.rule? = some index) :
    Blames index (.error fault) := by
  intro other hother
  cases hother
  exact h

theorem Blames.seq {index : Nat} {a b : Except Fault Unit} (ha : Blames index a)
    (hb : Blames index b) : Blames index (a >>= fun _ => b) := by
  intro fault h
  rcases seq_eq_error_iff.1 h with hfirst | ⟨-, hsecond⟩
  · exact ha fault hfirst
  · exact hb fault hsecond

namespace Rule

variable (registry : ConversionRegistry) (known : Option (List String))
  (written : WrittenFields) (captured : List String) (index : Nat) (rule : Rule)

theorem blames_checkChunk : Blames index (rule.checkChunk known index) := by
  unfold checkChunk
  split
  · exact blames_error rfl
  · split
    · exact blames_ok index
    · exact blames_error rfl

theorem blames_checkConversion : Blames index (rule.checkConversion registry index) := by
  unfold checkConversion
  split
  · exact blames_ok index
  · split
    · exact blames_ok index
    · exact blames_error rfl

theorem blames_checkLinkage : Blames index (rule.checkLinkage written index) := by
  unfold checkLinkage
  split
  · exact blames_ok index
  · split
    · exact blames_error rfl
    · split
      · exact blames_ok index
      · exact blames_error rfl
  · exact blames_error rfl

theorem blames_checkMatchStep :
    Blames index (rule.checkMatchStep registry written index) := by
  unfold checkMatchStep
  split
  · exact blames_ok index
  · split
    · exact blames_error rfl
    · split
      · exact blames_error rfl
      · exact (blames_checkConversion registry index rule).seq
          (blames_checkLinkage written index rule)

theorem blames_checkDirectives (entry : SplitSearch) :
    Blames index (checkDirectives captured index entry) := by
  unfold checkDirectives
  split
  · exact blames_error rfl
  · split
    · exact blames_error rfl
    · exact blames_ok index

theorem blames_checkSplitSearch (entries : List SplitSearch) :
    Blames index (checkSplitSearch captured index entries) := by
  induction entries with
  | nil => exact blames_ok index
  | cons entry rest ih => exact (blames_checkDirectives captured index entry).seq ih

theorem blames_checkCombineBy : Blames index (rule.checkCombineBy index) := by
  unfold checkCombineBy
  split
  · exact blames_error rfl
  · exact blames_ok index

theorem blames_check : Blames index (rule.check registry known written captured index) :=
  (blames_checkChunk known index rule).seq
    ((blames_checkMatchStep registry written index rule).seq
      ((blames_checkSplitSearch (rule.capturedWith captured) index rule.splitSearch).seq
        (blames_checkCombineBy index rule)))

end Rule

/-! ## More conversions, more chunks -/

/-- `wider` converts every pair of types that `registry` converts. -/
def ConversionRegistry.Covers (wider registry : ConversionRegistry) : Prop :=
  ∀ source target, registry.isRegistered source target = true →
    wider.isRegistered source target = true

/-- A registry with a converter added covers what was there. -/
theorem ConversionRegistry.covers_register (registry : ConversionRegistry) (a b : ValueType)
    (f : Converter) : (registry.register a b f).Covers registry := by
  intro source target h
  simp only [isRegistered, register, Bool.or_eq_true] at h ⊢
  by_cases hpair : source = a ∧ target = b
  · simp [hpair]
  · simpa [hpair] using h

/-- The declarations are dropped, or more chunks are declared. -/
inductive DeclaresMore : Option (List String) → Option (List String) → Prop where
  | dropped (known : Option (List String)) : DeclaresMore known none
  | enlarged {chunks more : List String} (h : ∀ chunk ∈ chunks, chunk ∈ more) :
      DeclaresMore (some chunks) (some more)

namespace Rule

variable {registry wider : ConversionRegistry} {known more : Option (List String)}
  {written : WrittenFields} {captured : List String} {index : Nat} {rule : Rule}

theorem checkChunk_eq_ok_iff :
    rule.checkChunk known index = .ok () ↔
      rule.chunk.isEmpty = false ∧ ∀ chunks, known = some chunks → rule.chunk ∈ chunks := by
  unfold checkChunk
  by_cases hempty : rule.chunk.isEmpty = true
  · simp [hempty]
  · cases known <;> simp [hempty]

theorem checkChunk_mono (h : DeclaresMore known more)
    (hok : rule.checkChunk known index = .ok ()) : rule.checkChunk more index = .ok () := by
  obtain ⟨hnamed, hdeclared⟩ := checkChunk_eq_ok_iff.1 hok
  refine checkChunk_eq_ok_iff.2 ⟨hnamed, ?_⟩
  intro chunks hchunks
  cases h with
  | dropped => exact nomatch hchunks
  | enlarged hmore =>
    cases hchunks
    exact hmore _ (hdeclared _ rfl)

theorem checkMatchStep_mono (h : wider.Covers registry)
    (hok : rule.checkMatchStep registry written index = .ok ()) :
    rule.checkMatchStep wider written index = .ok () := by
  by_cases hmatch : rule.hasMatchStep = true
  · obtain ⟨hdest, htext, hconversion, hlinkage⟩ := (checkMatchStep_eq_ok_iff hmatch).1 hok
    refine (checkMatchStep_eq_ok_iff hmatch).2 ⟨hdest, htext, ?_, hlinkage⟩
    refine checkConversion_eq_ok_iff.2 ?_
    intro source target hpair
    exact h source target (checkConversion_eq_ok_iff.1 hconversion source target hpair)
  · simp [checkMatchStep, hmatch]

/-- A rule that passes its checks passes them with more conversions and more chunks. -/
theorem check_mono (hpairs : wider.Covers registry) (hchunks : DeclaresMore known more)
    (hok : rule.check registry known written captured index = .ok ()) :
    rule.check wider more written captured index = .ok () := by
  obtain ⟨hchunk, hmatch, hsplit, hcombine⟩ := check_eq_ok_iff.1 hok
  exact check_eq_ok_iff.2
    ⟨checkChunk_mono hchunks hchunk, checkMatchStep_mono hpairs hmatch, hsplit, hcombine⟩

end Rule

/-! ## Rule lists -/

namespace RuleSet

variable {registry wider : ConversionRegistry} {known more : Option (List String)}
  {rules before : List Rule}

theorem EachPasses.initial (hinitial : before <+: rules)
    (h : EachPasses registry known rules) :
    EachPasses registry known before := by
  intro i rule hget
  obtain ⟨after, rfl⟩ := hinitial
  have hi : i < before.length := (List.getElem?_eq_some_iff.1 hget).1
  have hrule := h i rule (by rw [List.getElem?_append_left hi, hget])
  rwa [List.take_append_of_le_length (Nat.le_of_lt hi)] at hrule

theorem EachPasses.mono (hpairs : wider.Covers registry) (hchunks : DeclaresMore known more)
    (h : EachPasses registry known rules) : EachPasses wider more rules := by
  intro i rule hget
  exact Rule.check_mono hpairs hchunks (h i rule hget)

/-- A fault names the first rule that does not pass. The rules before it are accepted on their
own, and no rule put behind it makes a difference. -/
theorem ofRules_error_stable {fault : Fault}
    (h : ofRules registry known rules = .error fault) :
    ∃ i, fault.rule? = some i ∧ i < rules.length ∧
      ofRules registry known (rules.take i) = .ok ⟨rules.take i⟩ ∧
      ∀ later, ofRules registry known (rules.take (i + 1) ++ later) = .error fault := by
  obtain ⟨i, rule, hget, hbefore, hcheck⟩ := ofRules_eq_error_iff.1 h
  have hi : i < rules.length := (List.getElem?_eq_some_iff.1 hget).1
  refine ⟨i, Rule.blames_check _ _ _ _ i rule fault hcheck, hi, hbefore, ?_⟩
  intro later
  have hlen : i < (rules.take (i + 1)).length := by
    rw [List.length_take]
    omega
  have htake : (rules.take (i + 1) ++ later).take i = rules.take i := by
    rw [List.take_append_of_le_length (Nat.le_of_lt hlen), List.take_take,
      Nat.min_eq_left (Nat.le_succ i)]
  refine ofRules_eq_error_iff.2 ⟨i, rule, ?_, ?_, ?_⟩
  · rw [List.getElem?_append_left hlen, List.getElem?_take_of_lt (Nat.lt_succ_self i), hget]
  · rw [htake, hbefore]
  · rw [htake, hcheck]

theorem ofRules_initial {set : RuleSet} (h : ofRules registry known rules = .ok set)
    (hinitial : before <+: rules) : ofRules registry known before = .ok ⟨before⟩ :=
  ofRules_eq_ok_iff.2 ⟨rfl, (ofRules_eq_ok_iff.1 h).2.initial hinitial⟩

theorem ofRules_mono {set : RuleSet} (hpairs : wider.Covers registry)
    (hchunks : DeclaresMore known more) (h : ofRules registry known rules = .ok set) :
    ofRules wider more rules = .ok set := by
  obtain ⟨hset, heach⟩ := ofRules_eq_ok_iff.1 h
  exact ofRules_eq_ok_iff.2 ⟨hset, heach.mono hpairs hchunks⟩

end RuleSet

/-- The fault of a rejected list names the first rule to blame: the rules before it are
accepted on their own, and whatever follows it, the fault is the same. An accepted list is
kept as it was, and so is each initial part of it; with more conversions, with more chunks
declared or without declarations it is still accepted. -/
theorem ofRules_verdict_stable (registry : ConversionRegistry) (known : Option (List String))
    (rules : List Rule) :
    (∀ fault, RuleSet.ofRules registry known rules = .error fault →
      ∃ i, fault.rule? = some i ∧ i < rules.length ∧
        RuleSet.ofRules registry known (rules.take i) = .ok ⟨rules.take i⟩ ∧
        ∀ later, RuleSet.ofRules registry known (rules.take (i + 1) ++ later) =
          .error fault) ∧
    ∀ set, RuleSet.ofRules registry known rules = .ok set →
      set.rules = rules ∧
      (∀ before, before <+: rules → RuleSet.ofRules registry known before = .ok ⟨before⟩) ∧
      ∀ wider more, ConversionRegistry.Covers wider registry → DeclaresMore known more →
        RuleSet.ofRules wider more rules = .ok set := by
  refine ⟨fun fault h => RuleSet.ofRules_error_stable h, ?_⟩
  intro set h
  refine ⟨?_, ?_, ?_⟩
  · rw [(RuleSet.ofRules_eq_ok_iff.1 h).1]
  · intro before hinitial
    exact RuleSet.ofRules_initial h hinitial
  · intro wider more hpairs hchunks
    exact RuleSet.ofRules_mono hpairs hchunks h

/-- The second rule reads a field that the first one does not write, and is blamed whatever
follows it. A list without it is accepted, and stays so when the declarations are dropped or a
converter is added. -/
theorem ofRules_verdict_stable_domains :
    let domains : Rule :=
      { (default : Rule) with chunk := "domains", destName := "id", commonKeys := ["vlan"] }
    let groups : Rule :=
      { (default : Rule) with
        chunk := "groups", sourceName := "vlan", destName := "id", linkage := .indirect }
    let misled : Rule := { groups with sourceName := "gateway" }
    let known := some ["domains", "groups"]
    (RuleSet.ofRules .empty known [domains, misled] =
      .error (.ruleOrderViolation 1 "gateway") ∧
      ∀ later, RuleSet.ofRules .empty known ([domains, misled] ++ later) =
        .error (.ruleOrderViolation 1 "gateway")) ∧
    (RuleSet.ofRules .empty known [domains, groups] = .ok ⟨[domains, groups]⟩ ∧
      RuleSet.ofRules .empty known [domains] = .ok ⟨[domains]⟩ ∧
      ∀ f, RuleSet.ofRules (ConversionRegistry.empty.register .string .integer f) none
        [domains, groups] = .ok ⟨[domains, groups]⟩) := by
  intro domains groups misled known
  have rejected : RuleSet.ofRules .empty known [domains, misled] =
      .error (.ruleOrderViolation 1 "gateway") := by
    simp only [domains, misled, groups, known]
    rfl
  have accepted : RuleSet.ofRules .empty known [domains, groups] = .ok ⟨[domains, groups]⟩ :=
    rfl
  obtain ⟨i, hi, -, -, hlater⟩ :=
    (ofRules_verdict_stable .empty known [domains, misled]).1 _ rejected
  obtain rfl : 1 = i := Option.some.inj hi
  obtain ⟨-, hinitial, hmono⟩ :=
    (ofRules_verdict_stable .empty known [domains, groups]).2 _ accepted
  refine ⟨⟨rejected, hlater⟩, accepted, hinitial [domains] ⟨[groups], rfl⟩, ?_⟩
  intro f
  exact hmono _ _ (ConversionRegistry.covers_register .empty .string .integer f)
    (.dropped known)

end FabricFootprint
