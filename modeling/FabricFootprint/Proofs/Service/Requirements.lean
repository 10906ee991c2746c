import FabricFootprint.Proofs.Rule.Stability
import FabricFootprint.Proofs.Service.Compilation
import Mathlib.Data.List.TakeWhile

/-!
FabricFootprint.Proofs.Service.Requirements — what a service definition
has to fulfil to compile.

The walks of the compiler stop at the first fault; what they require
together has no order in it.

* `Text.trim_isEmpty_iff` — a text is empty after trimming when all of it is blank.
* `ServiceDefinition.declaredChunks` — the chunks that a definition declares, as they are
  listed. The compiler sorts them and drops repetitions, which makes no difference to the
  rules (`ofRules_knownChunks`).
* `compile_accepts_iff` — the requirements, each in terms of the definition itself, and what a
  definition that fulfils them is compiled to.
-/

namespace FabricFootprint

/-! ## Names -/

/-- Trimming leaves nothing exactly when every character is blank. -/
theorem Text.trim_isEmpty_iff {s : String} :
    (trim s).isEmpty = true ↔ ∀ c ∈ s.toList, isBlank c = true := by
  have hcut : (∀ c ∈ s.toList.dropWhile isBlank, isBlank c = true) ↔
      ∀ c ∈ s.toList, isBlank c = true := by
    constructor
    · intro h c hc
      rw [← List.takeWhile_append_dropWhile (p := isBlank) (l := s.toList)] at hc
      rcases List.mem_append.1 hc with hc | hc
      · exact List.mem_takeWhile_imp hc
      · exact h c hc
    · intro h c hc
      exact h c ((List.dropWhile_sublist isBlank).mem hc)
  rw [← hcut]
  simp [trim, trimChars, List.dropWhile_eq_nil_iff]

theorem Text.trim_not_isEmpty_iff {s : String} :
    (trim s).isEmpty = false ↔ ∃ c ∈ s.toList, isBlank c = false := by
  rw [← Bool.not_eq_true, trim_isEmpty_iff]
  simp

namespace ServiceDefinition

variable {definition : ServiceDefinition} {registry : ConversionRegistry}

/-! ## Declared chunks -/

/-- The names of the declared chunks, as they are listed. Without declarations every chunk is
allowed. -/
def declaredChunks (definition : ServiceDefinition) : Option (List String) :=
  if definition.chunks = [] then none
  else some (definition.chunks.map ChunkDefinition.chunk)

/-- The sorted names of the declared chunks and the listed ones are the same names. -/
theorem declaresMore_knownChunks (definition : ServiceDefinition) :
    DeclaresMore definition.knownChunks definition.declaredChunks ∧
      DeclaresMore definition.declaredChunks definition.knownChunks := by
  unfold knownChunks declaredChunks
  by_cases hchunks : definition.chunks = []
  · simp only [hchunks, List.isEmpty_nil, ↓reduceIte]
    exact ⟨.dropped none, .dropped none⟩
  · have hempty : definition.chunks.isEmpty = false := by simpa using hchunks
    simp only [hchunks, hempty, Bool.false_eq_true, ↓reduceIte]
    refine ⟨.enlarged ?_, .enlarged ?_⟩
    · intro chunk hchunk
      simpa [FieldMap.mem_names_ofList] using hchunk
    · intro chunk hchunk
      simpa [FieldMap.mem_names_ofList] using hchunk

theorem ofRules_knownChunks {rules : List Rule} {set : RuleSet} :
    RuleSet.ofRules registry definition.knownChunks rules = .ok set ↔
      RuleSet.ofRules registry definition.declaredChunks rules = .ok set := by
  have hpairs : registry.Covers registry := fun _ _ h => h
  obtain ⟨hlisted, hsorted⟩ := declaresMore_knownChunks definition
  exact ⟨RuleSet.ofRules_mono hpairs hlisted, RuleSet.ofRules_mono hpairs hsorted⟩

/-! ## Requirements -/

/-- A definition fulfils what the compiler requires. -/
structure Fulfils (definition : ServiceDefinition) (registry : ConversionRegistry) :
    Prop where
  /-- The name is not blank: something is left of it after trimming. -/
  named : ∃ c ∈ definition.name.toList, Text.isBlank c = false
  rulesAccepted :
    ∃ set, RuleSet.ofRules registry definition.declaredChunks definition.rules = .ok set
  componentsDistinct : definition.components.Pairwise fun a b => a.name ≠ b.name
  componentsKeyed : ∀ component ∈ definition.components, component.keys ≠ []
  typesDistinct : definition.catalog.definitions.Pairwise fun a b => a.name ≠ b.name
  typesFree : ∀ type ∈ definition.catalog.definitions,
    type.name ≠ notExistText ∧ type.name ≠ notDefinedText
  componentsDeclared : ∀ type ∈ definition.catalog.definitions,
    ∀ name expected, type.components.get? name = some expected →
      ∃ component ∈ definition.components, component.name = name

theorem pairwise_ne_iff_nodup {α : Type} {name : α → String} {items : List α} :
    items.Pairwise (fun a b => name a ≠ name b) ↔ (items.map name).Nodup := by
  rw [List.Nodup, List.pairwise_map]

theorem typeIsSound_iff {type : ServiceTypeDefinition} :
    TypeIsSound (definition.components.map ServiceComponent.name) type ↔
      (type.name ≠ notExistText ∧ type.name ≠ notDefinedText) ∧
        ∀ name expected, type.components.get? name = some expected →
          ∃ component ∈ definition.components, component.name = name := by
  simp only [TypeIsSound, FieldMap.mem_names_iff, List.mem_map, and_assoc,
    forall_exists_index]

/-- What the walks of the compiler establish is what is required. -/
theorem wellFormed_iff_fulfils :
    definition.WellFormed registry ↔ definition.Fulfils registry := by
  constructor
  · intro h
    exact
      { named := Text.trim_not_isEmpty_iff.1 h.nameNotBlank
        rulesAccepted := ⟨_, ofRules_knownChunks.1 h.rulesAccepted⟩
        componentsDistinct := pairwise_ne_iff_nodup.2 h.componentsNodup
        componentsKeyed := h.componentsKeyed
        typesDistinct := pairwise_ne_iff_nodup.2 h.typesNodup
        typesFree := fun type htype => (typeIsSound_iff.1 (h.typesSound type htype)).1
        componentsDeclared :=
          fun type htype => (typeIsSound_iff.1 (h.typesSound type htype)).2 }
  · intro h
    obtain ⟨set, hset⟩ := h.rulesAccepted
    exact
      { nameNotBlank := Text.trim_not_isEmpty_iff.2 h.named
        rulesAccepted := (ofRules_eq_ok_self_iff.1 (ofRules_knownChunks.2 hset)).1
        componentsNodup := pairwise_ne_iff_nodup.1 h.componentsDistinct
        componentsKeyed := h.componentsKeyed
        typesNodup := pairwise_ne_iff_nodup.1 h.typesDistinct
        typesSound := fun type htype =>
          typeIsSound_iff.2 ⟨h.typesFree type htype, h.componentsDeclared type htype⟩ }

theorem family_namedCatalog :
    definition.namedCatalog.family =
      if definition.catalog.family = "" then definition.name
      else definition.catalog.family := by
  unfold namedCatalog
  by_cases hfamily : definition.catalog.family = "" <;> simp [hfamily]

end ServiceDefinition

/-- A definition compiles exactly when it fulfils the requirements. The compiled service has
its rules, its components and its types as they were, in their order, and only an empty family
is replaced, by the name of the service. -/
theorem compile_accepts_iff (definition : ServiceDefinition) (registry : ConversionRegistry) :
    ((∃ service, definition.compile registry = .ok service) ↔ definition.Fulfils registry) ∧
    ∀ service, definition.compile registry = .ok service →
      service.name = definition.name ∧ service.rules.rules = definition.rules ∧
      service.components = definition.components ∧
      service.catalog.definitions = definition.catalog.definitions ∧
      service.catalog.family =
        if definition.catalog.family = "" then definition.name
        else definition.catalog.family := by
  constructor
  · simp only [ServiceDefinition.compile_eq_ok_iff, ServiceDefinition.wellFormed_iff_fulfils]
    simp
  · intro service h
    obtain ⟨-, rfl⟩ := ServiceDefinition.compile_eq_ok_iff.1 h
    exact ⟨rfl, rfl, rfl, namedCatalog_definitions, ServiceDefinition.family_namedCatalog⟩

/-- A definition that declares one of its two chunks twice, and has no family, fulfils the
requirements. A second component of the same name would not. -/
theorem compile_accepts_iff_gateway :
    let switched : ServiceComponent := ⟨"switched", [⟨"vlan", .str anyValue, .equal⟩]⟩
    let definition : ServiceDefinition :=
      { name := " epg"
        chunks := [⟨"groups", []⟩, ⟨"domains", ["/fabric"]⟩, ⟨"groups", []⟩]
        rules := [{ (default : Rule) with
          chunk := "groups", destName := "name", commonKeys := ["vlan"] }]
        components := [switched, ⟨"routed", [⟨"gateway", .str anyValue, .equal⟩]⟩]
        catalog := ⟨"", [⟨"l2", FieldMap.ofList [("switched", true), ("routed", false)]⟩]⟩ }
    let repeated := { definition with components := [switched, switched] }
    definition.Fulfils .standard ∧
      (∃ service, definition.compile .standard = .ok service ∧
        service.catalog.family = " epg") ∧
      ¬ ∃ service, repeated.compile .standard = .ok service := by
  intro switched definition repeated
  have declared : ∀ type ∈ definition.catalog.definitions,
      ServiceDefinition.TypeIsSound
        (definition.components.map ServiceComponent.name) type := by
    decide
  have fulfils : definition.Fulfils .standard :=
    ServiceDefinition.wellFormed_iff_fulfils.1
      ⟨by decide, rfl, by decide, by decide, by decide, declared⟩
  obtain ⟨service, hservice⟩ := (compile_accepts_iff definition .standard).1.2 fulfils
  obtain ⟨-, -, -, -, hfamily⟩ :=
    (compile_accepts_iff definition .standard).2 service hservice
  refine ⟨fulfils, ⟨service, hservice, hfamily⟩, ?_⟩
  intro hcompiles
  have hdistinct :=
    ((compile_accepts_iff repeated .standard).1.1 hcompiles).componentsDistinct
  simp [repeated] at hdistinct

end FabricFootprint
