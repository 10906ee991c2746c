import FabricFootprint.Document.Services
import FabricFootprint.Proofs.Document.Node

/-!
FabricFootprint.Proofs.Document.Services — service definitions are read back from the
trees they are written as.

The format has to give back texts, truth values and the values that `kept` holds of; the
values of a definition are those that its components expect.

Five members of a rule have an older name. `Rule.encodeSpelled` writes some of them
under it, and `ServiceDefinition.encodeSpelled` does so rule by rule. What is read does
not depend on the choice.

`ServiceDefinition.decode?_encodeSpelled` is assembled from one lemma for
each part of a definition.
-/

namespace FabricFootprint

/-! ## Older names -/

namespace Rule

/-- The members of a rule that have an older name, with this name. -/
def olderNames : List (String × String) :=
  [("KeySourceName", "KeySName"), ("KeySourceType", "KeySType"), ("KeyDestName", "KeyDName"),
    ("KeyDestType", "KeyDType"), ("Linkage", "KeyLink")]

/-- The name that a member is written under: the older one, where it is asked
for and there is one. -/
def spell (older : String → Bool) (member : String) : String :=
  if older member then (olderNames.lookup member).getD member else member

/-- The tree of a rule with the members that `older` holds of under their older names. -/
def encodeSpelled (older : String → Bool) (rule : Rule) : Node Datum :=
  Node.ofMembers (rule.members.map fun m => (spell older m.1, m.2))

theorem encodeSpelled_none (rule : Rule) :
    rule.encodeSpelled (fun _ => false) = rule.encode := by
  simp [encodeSpelled, encode, spell]

/-- All members of a rule, with their nodes as far as they have one. -/
def table (rule : Rule) : List (String × Option (Node Datum)) :=
  [("ChunkName", some (Node.ofText rule.chunk)),
    ("KeySourceName", some (Node.ofText rule.sourceName)),
    ("KeySourceType", rule.sourceType.map ValueType.encode),
    ("KeyDestName", some (Node.ofText rule.destName)),
    ("KeyDestType", rule.destType.map ValueType.encode),
    ("Linkage", some (Node.ofText rule.linkage.name)),
    ("MatchType", some (Node.ofText rule.matchType.name)),
    ("CommonKeysList", some (Node.ofTexts rule.commonKeys)),
    ("CommonKeysListPrefix", some (Node.ofText rule.qualifier)),
    ("Filter", rule.filter.map Filter.encode),
    ("SplitSearch", some (Node.ofItems SplitSearch.encode rule.splitSearch)),
    ("CombineBy", rule.combineBy.map CombineBy.encode)]

theorem members_eq (rule : Rule) : rule.members = Node.present rule.table := by
  obtain ⟨_, _, sourceType, _, destType, _, _, _, _, filter, _, combineBy⟩ := rule
  cases sourceType <;> cases destType <;> cases filter <;> cases combineBy <;> rfl

/-- Both names of a member are names that this member goes by, and no other one. -/
theorem spells_spell (older : String → Bool) : Node.Spells shape (spell older) := by
  have hnames : ∀ m ∈ shape, ∀ name ∈ shape.map Node.Member.name,
      m.isNamed name = (m.name == name) ∧
        m.isNamed ((olderNames.lookup name).getD name) = (m.name == name) := by
    decide
  intro m hm name hname
  obtain ⟨hnew, hold⟩ := hnames m hm name hname
  rw [spell]
  split
  · exact hold
  · exact hnew

end Rule

namespace ServiceDefinition

/-- The tree of a definition; the rule at a position has the members that `older` holds of
there under their older names. -/
def encodeSpelled (older : Nat → String → Bool) (definition : ServiceDefinition) :
    Node Datum :=
  Node.ofMembers
    [("ServiceName", Node.ofText definition.name),
      ("DMEProcessing", Node.ofItems ChunkDefinition.encode definition.chunks),
      ("ServiceConstructPath",
        .list (definition.rules.mapIdx fun position => Rule.encodeSpelled (older position))),
      ("ServiceComponents", Node.ofItems ServiceComponent.encode definition.components),
      ("ServiceTypes", ServiceTypeCatalog.encode definition.catalog)]

theorem encodeSpelled_none (definition : ServiceDefinition) :
    definition.encodeSpelled (fun _ _ => false) = definition.encode := by
  have hrules : (definition.rules.mapIdx fun _ => Rule.encodeSpelled fun _ => false) =
      definition.rules.map Rule.encode := by
    induction definition.rules with
    | nil => rfl
    | cons rule rest ih => rw [List.mapIdx_cons, ih, Rule.encodeSpelled_none, List.map_cons]
  rw [encodeSpelled, hrules]
  rfl

/-- The values that the components of a definition expect. -/
def values (definition : ServiceDefinition) : List Value :=
  definition.components.flatMap fun component => component.keys.map ComponentKey.value

end ServiceDefinition

/-! ## Names from tables -/

theorem Linkage.ofName?_name (linkage : Linkage) : ofName? linkage.name = some linkage := by
  cases linkage <;> rfl

theorem MatchType.ofName?_name (matchType : MatchType) :
    ofName? matchType.name = some matchType := by
  cases matchType <;> rfl

theorem ComponentMatch.ofName?_name (matchType : ComponentMatch) :
    ofName? matchType.name = some matchType := by
  cases matchType <;> rfl

section Parts

open Node

variable {σ : Type} [Scalar σ] {write : Datum → σ} {kept : Value → Prop}
  (h : Rereads write kept)
include h

/-! ## Rules -/

theorem ValueType.decode?_encode (t : ValueType) : decode? ((encode t).map write) = some t :=
  h.named?_ofText (ofName?_name t)

theorem Filter.decode?_encode (f : Filter) : decode? ((encode f).map write) = some f := by
  rw [decode?, encode]
  refine Option.bind_eq_some_iff.2
    ⟨_, fields?_ofMembers (by simp [shape]) (by simp) (by simp [shape]), ?_⟩
  refine Option.bind_eq_some_iff.2 ⟨_, withDefault_written rfl (h.text?_ofText f.name), ?_⟩
  exact Option.bind_eq_some_iff.2 ⟨_, withDefault_written rfl (h.text?_ofText f.key), rfl⟩

theorem SearchDirective.decode?_encode (d : SearchDirective) :
    decode? ((encode d).map write) = some d := by
  rw [decode?, encode]
  refine Option.bind_eq_some_iff.2
    ⟨_, fields?_ofMembers (by simp [shape]) (by simp) (by simp [shape]), ?_⟩
  refine Option.bind_eq_some_iff.2 ⟨_, required_written rfl (h.text?_ofText d.searchFrom), ?_⟩
  exact Option.bind_eq_some_iff.2 ⟨_, required_written rfl (h.text?_ofText d.searchFor), rfl⟩

theorem SplitSearch.decode?_encode (entry : SplitSearch) :
    decode? ((encode entry).map write) = some entry := by
  have hdirectives := items?_ofItems fun d (_ : d ∈ entry.directives) =>
    SearchDirective.decode?_encode h d
  rw [decode?, encode]
  refine Option.bind_eq_some_iff.2
    ⟨_, fields?_ofMembers (by simp [shape]) (by simp) (by simp [shape]), ?_⟩
  refine Option.bind_eq_some_iff.2 ⟨_,
    withDefault_written rfl (h.texts?_ofTexts entry.keys), ?_⟩
  refine Option.bind_eq_some_iff.2 ⟨_, withDefault_written rfl hdirectives, ?_⟩
  exact Option.bind_eq_some_iff.2 ⟨_,
    withDefault_written rfl (h.text?_ofText entry.qualifier), rfl⟩

theorem CombineBy.decode?_encode (combine : CombineBy) :
    decode? ((encode combine).map write) = some combine := by
  rw [decode?, encode]
  refine Option.bind_eq_some_iff.2
    ⟨_, fields?_ofMembers (by simp [shape]) (by simp) (by simp [shape]), ?_⟩
  refine Option.bind_eq_some_iff.2 ⟨_,
    required_written rfl (h.text?_ofText combine.option), ?_⟩
  exact Option.bind_eq_some_iff.2 ⟨_,
    withDefault_written rfl (h.texts?_ofTexts combine.keys), rfl⟩

/-- A rule is read back whichever members have their older names. -/
theorem Rule.decode?_encodeSpelled (older : String → Bool) (rule : Rule) :
    decode? ((rule.encodeSpelled older).map write) = some rule := by
  have hsearches := items?_ofItems fun entry (_ : entry ∈ rule.splitSearch) =>
    SplitSearch.decode?_encode h entry
  have hdistinct : (rule.table.map Prod.fst).Nodup := by simp [table]
  have found {name : String} {node : Option (Node Datum)}
      (hname : rule.table.lookup name = some node) :
      (present rule.table).lookup name = node :=
    lookup_present hdistinct hname
  rw [decode?, encodeSpelled, members_eq]
  refine Option.bind_eq_some_iff.2
    ⟨_, fields?_spelled (spells_spell older) (nodup_present hdistinct)
      (known_present (by simp [table, shape])), ?_⟩
  refine Option.bind_eq_some_iff.2 ⟨_,
    required_written (found rfl) (h.text?_ofText rule.chunk), ?_⟩
  refine Option.bind_eq_some_iff.2
    ⟨_, withDefault_written (found rfl) (h.text?_ofText rule.sourceName), ?_⟩
  refine Option.bind_eq_some_iff.2 ⟨_, optional_written (found rfl)
    (fun t => h.isNull_ofText t.name) (ValueType.decode?_encode h), ?_⟩
  refine Option.bind_eq_some_iff.2
    ⟨_, withDefault_written (found rfl) (h.text?_ofText rule.destName), ?_⟩
  refine Option.bind_eq_some_iff.2 ⟨_, optional_written (found rfl)
    (fun t => h.isNull_ofText t.name) (ValueType.decode?_encode h), ?_⟩
  refine Option.bind_eq_some_iff.2 ⟨_, withDefault_written (found rfl)
    (h.named?_ofText (Linkage.ofName?_name rule.linkage)), ?_⟩
  refine Option.bind_eq_some_iff.2 ⟨_, withDefault_written (found rfl)
    (h.named?_ofText (MatchType.ofName?_name rule.matchType)), ?_⟩
  refine Option.bind_eq_some_iff.2
    ⟨_, withDefault_written (found rfl) (h.texts?_ofTexts rule.commonKeys), ?_⟩
  refine Option.bind_eq_some_iff.2
    ⟨_, withDefault_written (found rfl) (h.text?_ofText rule.qualifier), ?_⟩
  refine Option.bind_eq_some_iff.2
    ⟨_, optional_written (found rfl) (fun _ => rfl) (Filter.decode?_encode h), ?_⟩
  refine Option.bind_eq_some_iff.2 ⟨_, withDefault_written (found rfl) hsearches, ?_⟩
  exact Option.bind_eq_some_iff.2
    ⟨_, optional_written (found rfl) (fun _ => rfl) (CombineBy.decode?_encode h), rfl⟩

/-! ## Components and types -/

theorem ComponentKey.decode?_encode {key : ComponentKey} (hkept : kept key.value) :
    decode? ((encode key).map write) = some key := by
  rw [decode?, encode]
  refine Option.bind_eq_some_iff.2
    ⟨_, fields?_ofMembers (by simp [shape]) (by simp) (by simp [shape]), ?_⟩
  refine Option.bind_eq_some_iff.2 ⟨_, required_written rfl (h.text?_ofText key.name), ?_⟩
  refine Option.bind_eq_some_iff.2 ⟨_, withDefault_written rfl (h.value key.value hkept), ?_⟩
  exact Option.bind_eq_some_iff.2 ⟨_, required_written rfl
    (h.named?_ofText (ComponentMatch.ofName?_name key.matchType)), rfl⟩

theorem ServiceComponent.decode?_encode {component : ServiceComponent}
    (hkept : ∀ key ∈ component.keys, kept key.value) :
    decode? ((encode component).map write) = some component := by
  have hkeys := items?_ofItems fun key hkey => ComponentKey.decode?_encode h (hkept key hkey)
  rw [decode?, encode]
  refine Option.bind_eq_some_iff.2
    ⟨_, fields?_ofMembers (by simp [shape]) (by simp) (by simp [shape]), ?_⟩
  refine Option.bind_eq_some_iff.2 ⟨_,
    required_written rfl (h.text?_ofText component.name), ?_⟩
  exact Option.bind_eq_some_iff.2 ⟨_, withDefault_written rfl hkeys, rfl⟩

theorem ServiceTypeDefinition.decode?_encode (definition : ServiceTypeDefinition) :
    decode? ((encode definition).map write) = some definition := by
  have hcomponents := map?_ofMap fun name expected
    (_ : definition.components.get? name = some expected) => h.bool?_ofBool expected
  rw [decode?, encode]
  refine Option.bind_eq_some_iff.2
    ⟨_, fields?_ofMembers (by simp [shape]) (by simp) (by simp [shape]), ?_⟩
  refine Option.bind_eq_some_iff.2 ⟨_,
    required_written rfl (h.text?_ofText definition.name), ?_⟩
  exact Option.bind_eq_some_iff.2 ⟨_, withDefault_written rfl hcomponents, rfl⟩

theorem ServiceTypeCatalog.decode?_encode (catalog : ServiceTypeCatalog) :
    decode? ((encode catalog).map write) = some catalog := by
  have hdefinitions := items?_ofItems fun definition (_ : definition ∈ catalog.definitions) =>
    ServiceTypeDefinition.decode?_encode h definition
  rw [decode?, encode]
  refine Option.bind_eq_some_iff.2
    ⟨_, fields?_ofMembers (by simp [shape]) (by simp) (by simp [shape]), ?_⟩
  refine Option.bind_eq_some_iff.2 ⟨_,
    withDefault_written rfl (h.text?_ofText catalog.family), ?_⟩
  exact Option.bind_eq_some_iff.2 ⟨_, withDefault_written rfl hdefinitions, rfl⟩

/-! ## Definitions -/

theorem ChunkDefinition.decodePath?_encodePath (path : String) :
    decodePath? ((encodePath path).map write) = some path := by
  rw [decodePath?, encodePath]
  refine Option.bind_eq_some_iff.2
    ⟨_, fields?_ofMembers (by simp [pathShape]) (by simp) (by simp [pathShape]), ?_⟩
  exact required_written rfl (h.text?_ofText path)

theorem ChunkDefinition.decode?_encode (definition : ChunkDefinition) :
    decode? ((encode definition).map write) = some definition := by
  have hpaths := items?_ofItems fun path (_ : path ∈ definition.paths) =>
    ChunkDefinition.decodePath?_encodePath h path
  rw [decode?, encode]
  refine Option.bind_eq_some_iff.2
    ⟨_, fields?_ofMembers (by simp [shape]) (by simp) (by simp [shape]), ?_⟩
  refine Option.bind_eq_some_iff.2 ⟨_,
    required_written rfl (h.text?_ofText definition.chunk), ?_⟩
  exact Option.bind_eq_some_iff.2 ⟨_, withDefault_written rfl hpaths, rfl⟩

/-- A definition is read back, whichever members of which rules have their older names, when
its values are among those that the format gives back. -/
theorem ServiceDefinition.decode?_encodeSpelled {definition : ServiceDefinition}
    (hkept : ∀ v ∈ definition.values, kept v) (older : Nat → String → Bool) :
    decode? ((definition.encodeSpelled older).map write) = some definition := by
  have hchunks := items?_ofItems fun chunk (_ : chunk ∈ definition.chunks) =>
    ChunkDefinition.decode?_encode h chunk
  have hrules := items?_mapIdx fun position rule (_ : rule ∈ definition.rules) =>
    Rule.decode?_encodeSpelled h (older position) rule
  have hcomponents :=
    items?_ofItems fun component (hcomponent : component ∈ definition.components) =>
      ServiceComponent.decode?_encode h fun key hkey => hkept key.value
        (List.mem_flatMap.2 ⟨component, hcomponent, List.mem_map_of_mem hkey⟩)
  rw [decode?, encodeSpelled]
  refine Option.bind_eq_some_iff.2
    ⟨_, fields?_ofMembers (by simp [shape]) (by simp) (by simp [shape]), ?_⟩
  refine Option.bind_eq_some_iff.2 ⟨_,
    required_written rfl (h.text?_ofText definition.name), ?_⟩
  refine Option.bind_eq_some_iff.2 ⟨_, withDefault_written rfl hchunks, ?_⟩
  refine Option.bind_eq_some_iff.2 ⟨_, withDefault_written rfl hrules, ?_⟩
  refine Option.bind_eq_some_iff.2 ⟨_, withDefault_written rfl hcomponents, ?_⟩
  exact Option.bind_eq_some_iff.2
    ⟨_, withDefault_written rfl (ServiceTypeCatalog.decode?_encode h definition.catalog), rfl⟩

end Parts

end FabricFootprint
