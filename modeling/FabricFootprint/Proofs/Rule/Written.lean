import FabricFootprint.Proofs.Extraction.Provenance
import FabricFootprint.Proofs.Rule.Rejection

/-!
FabricFootprint.Proofs.Rule.Written — the written-fields analysis covers every run.

The analysis sees the rules only; a run writes names that end in values of the device.
The two meet in what the names of copies look like: a name is known in advance, or it
begins with a stem that is.

* `Rule.CanWrite` — the field is a common key's name, or begins with a stem of the rule.
* `WrittenFields.contains_ofRules_iff` — the analysis of some rules contains what
  one of them can write.
* `Rule.canWrite_of_copies` — what a rule copies, whatever the records, it can write.
* `written_covers_runs` — so the data of a run stays within the analysis of the rules before
  it, and a rule that is rejected for its order could never have found a seed.
-/

namespace FabricFootprint

/-- A rule can write a field: it is the name of one of its common keys, or begins with the
stem of one of its split-search or combine-by names. -/
def Rule.CanWrite (rule : Rule) (field : String) : Prop :=
  field ∈ WrittenFields.exactOf rule ∨
    ∃ stem ∈ WrittenFields.stemsOf rule, stem.toList <+: field.toList

/-! ## The analysis -/

namespace WrittenFields

theorem ofRules_concat (before : List Rule) (rule : Rule) :
    ofRules (before ++ [rule]) = (ofRules before).record rule := by
  simp [ofRules]

theorem contains_record_iff {w : WrittenFields} {rule : Rule} {field : String} :
    (w.record rule).contains field = true ↔
      w.contains field = true ∨ rule.CanWrite field := by
  simp only [contains_eq_true_iff, record, Rule.CanWrite, List.mem_append, or_and_right,
    exists_or]
  exact or_or_or_comm

/-- The analysis of some rules contains a field exactly when one of them can write it. -/
theorem contains_ofRules_iff {rules : List Rule} {field : String} :
    (ofRules rules).contains field = true ↔ ∃ rule ∈ rules, rule.CanWrite field := by
  induction rules using List.reverseRecOn with
  | nil => simp [ofRules, none, contains_eq_true_iff]
  | append_singleton before rule ih =>
    rw [ofRules_concat, contains_record_iff, ih]
    simp [or_and_right, exists_or]

end WrittenFields

/-! ## The runs -/

/-- The name of a copy begins with the name that it has when the suffix is cut off. -/
theorem prefix_fieldName_append (qualifier name stem rest : String) :
    (fieldName qualifier name stem).toList <+:
      (fieldName qualifier name (stem ++ rest)).toList := by
  rw [fieldName_append]
  exact ⟨rest.toList, String.toList_append.symm⟩

theorem suffixText_of_ne_nil {own : List Value} (h : own ≠ []) :
    ∃ rest, suffixText own = "." ++ rest := by
  cases own with
  | nil => exact absurd rfl h
  | cons v own => exact ⟨v.text ++ suffixText own, by rw [suffixText, String.append_assoc]⟩

/-- What a rule copies it can write, whatever the records. -/
theorem Rule.canWrite_of_copies {rule : Rule} {records : List Record} {field : String}
    {v : Value} {record : Record}
    (h : rule.Copies records field v record) : rule.CanWrite field := by
  cases h with
  | @common key _ listed _ name =>
    left
    rw [name]
    exact List.mem_map.2 ⟨key, listed, rfl⟩
  | @split entry key own declared searches listed _ carries name =>
    right
    refine ⟨fieldName entry.qualifier key ".", List.mem_append_left _ ?_, ?_⟩
    · exact List.mem_flatMap.2 ⟨entry, declared, List.mem_map.2 ⟨key, listed, rfl⟩⟩
    · have hown : own ≠ [] := by
        rintro rfl
        exact searches (List.length_eq_zero_iff.1 carries.length_eq)
      obtain ⟨rest, hrest⟩ := suffixText_of_ne_nil hown
      rw [name, hrest]
      exact prefix_fieldName_append ..
  | @combine combine key option declared listed _ _ _ name =>
    right
    refine ⟨key ++ ".", List.mem_append_right _ ?_, ?_⟩
    · rw [declared]
      exact List.mem_map.2 ⟨key, listed, rfl⟩
    · rw [name]
      exact ⟨option.text.toList, String.toList_append.symm⟩

/-- What a run has written when it comes to a rule, a rule before that one can write. -/
theorem exists_canWrite_of_reaches {context : RunContext} {rules : List Rule} {i : Nat}
    {p : Progress} (h : Reaches context rules i p) {field : String} {v : Value}
    (hv : p.data.get? field = some v) : ∃ rule ∈ rules.take i, rule.CanWrite field := by
  obtain ⟨j, rule, r, hget, -, hwrite⟩ := Extraction.exists_write h hv
  obtain ⟨record, -, hcopies⟩ := Rule.copies_of_mem_writes hwrite
  exact ⟨rule, List.mem_of_getElem? hget, Rule.canWrite_of_copies hcopies⟩

/-- Whatever the key, the device and the registry: each field that is in the data when a run
comes to a position can be written by a rule before it, and the written-fields analysis of
these rules contains it. So where a list is rejected because rule `i` reads `field` too
early, the rules before `i` are accepted on their own, and no run of them has the field:
rule `i` finds no seed. -/
theorem written_covers_runs :
    (∀ (context : RunContext) (rules : List Rule) (i : Nat) (p : Progress),
      Reaches context rules i p → ∀ field v, p.data.get? field = some v →
        (∃ rule ∈ rules.take i, rule.CanWrite field) ∧
          (WrittenFields.ofRules (rules.take i)).contains field = true) ∧
    ∀ (registry : ConversionRegistry) (known : Option (List String)) (rules : List Rule)
      (i : Nat) (field : String),
      RuleSet.ofRules registry known rules = .error (.ruleOrderViolation i field) →
      RuleSet.ofRules registry known (rules.take i) = .ok ⟨rules.take i⟩ ∧
        ∃ rule, rules[i]? = some rule ∧ rule.hasMatchStep = true ∧ rule.linkage = .indirect ∧
          rule.sourceName = field ∧
          ∀ (context : RunContext) (p : Progress), Reaches context rules i p →
            p.data.get? field = none ∧
              rule.seed context.registry context.key p.data = .absent := by
  constructor
  · intro context rules i p hreach field v hv
    have hwriter := exists_canWrite_of_reaches hreach hv
    exact ⟨hwriter, WrittenFields.contains_ofRules_iff.2 hwriter⟩
  · intro registry known rules i field h
    obtain ⟨j, rule, hget, hbefore, hcheck⟩ := RuleSet.ofRules_eq_error_iff.1 h
    obtain ⟨rfl, hmatch, hlinkage, hsource, hwritten⟩ := Rule.check_eq_orderViolation hcheck
    refine ⟨hbefore, rule, hget, hmatch, hlinkage, hsource, fun context p hreach => ?_⟩
    have habsent : p.data.get? field = none := by
      cases hv : p.data.get? field with
      | none => rfl
      | some v =>
        have hcontains :=
          WrittenFields.contains_ofRules_iff.2 (exists_canWrite_of_reaches hreach hv)
        exact nomatch hwritten.symm.trans hcontains
    refine ⟨habsent, ?_⟩
    simp [Rule.seed, Rule.rawSeed?, hlinkage, hsource, Value.ofField?, habsent]

/-- The ports of a leaf are combined by their kind. The field `vlan.access` is there when the
second rule starts, and the stem `vlan.` covers it; a second rule that reads `vlan` is
rejected, and would never have found a seed on any device. -/
theorem written_covers_runs_ports :
    let ports : Rule :=
      { (default : Rule) with
        chunk := "ports", matchType := .noMatch, combineBy := some ⟨"kind", ["vlan"]⟩ }
    let policy : Rule :=
      { (default : Rule) with
        chunk := "policies", sourceName := "vlan.access", destName := "id"
        linkage := .indirect }
    let misled : Rule := { policy with sourceName := "vlan" }
    let port : Record := FieldMap.ofList [("kind", .str "access"), ("vlan", .str "7")]
    let leaf : DeviceChunks := ⟨"leaf-1", FieldMap.ofList [("ports", [port])]⟩
    (∃ p, Reaches ⟨"web", leaf, .empty⟩ [ports, policy] 1 p ∧
      p.data.get? "vlan.access" = some (.str "7") ∧
      (WrittenFields.ofRules [ports]).contains "vlan.access" = true) ∧
    RuleSet.ofRules .standard none [ports, misled] = .error (.ruleOrderViolation 1 "vlan") ∧
      ∀ (context : RunContext) (p : Progress), Reaches context [ports, misled] 1 p →
        p.data.get? "vlan" = none := by
  intro ports policy misled port leaf
  have reached : Reaches ⟨"web", leaf, .empty⟩ [ports, policy] 1
      ⟨FieldMap.ofList [("vlan.access", .str "7")], FilterTable.empty, []⟩ := rfl
  have rejected : RuleSet.ofRules .standard none [ports, misled] =
      .error (.ruleOrderViolation 1 "vlan") := by
    simp only [ports, policy, misled]
    rfl
  refine ⟨⟨_, reached, rfl, ?_⟩, rejected, fun context p hreach => ?_⟩
  · exact (written_covers_runs.1 _ _ _ _ reached "vlan.access" (.str "7") rfl).2
  · obtain ⟨-, rule, -, -, -, -, habsent⟩ := written_covers_runs.2 _ _ _ _ _ rejected
    exact (habsent context p hreach).1

end FabricFootprint
