import FabricFootprint.Proofs.Names
import FabricFootprint.Proofs.Rule.Acceptance
import FabricFootprint.Service

/-!
FabricFootprint.Proofs.Service.Compilation — the definitions that compile.

* `checkComponents_eq_ok_iff`, `checkTypes_eq_ok_iff` — what the two walks with a list of
  names met before establish.
* `ServiceDefinition.WellFormed` — the conditions on a definition, without
  reference to an order.
* `compile_eq_ok_iff` — a definition compiles exactly when it is well-formed, and keeps its
  rules, its components and its types.
-/

namespace FabricFootprint

namespace ServiceDefinition

/-! ## The walks over components and types -/

/-- The induction is on the components; the names met before vary with it. -/
theorem checkComponents_eq_ok_iff {seen : List String} {components : List ServiceComponent} :
    checkComponents seen components = .ok () ↔
      FreshNames seen (components.map ServiceComponent.name) ∧
        ∀ component ∈ components, component.keys ≠ [] := by
  induction components generalizing seen with
  | nil => exact ⟨fun _ => ⟨freshNames_nil seen, fun _ h => nomatch h⟩, fun _ => rfl⟩
  | cons component rest ih =>
    rw [checkComponents, List.map_cons, freshNames_cons, List.forall_mem_cons]
    split
    · next hseen =>
      have hmem : component.name ∈ seen := by simpa using hseen
      exact ⟨fun h => (nomatch h), fun h => absurd hmem h.1.1⟩
    · next hseen =>
      have hnot : component.name ∉ seen := by simpa using hseen
      split
      · next hkeys =>
        exact ⟨fun h => (nomatch h), fun h => absurd (List.isEmpty_iff.1 hkeys) h.2.1⟩
      · next hkeys =>
        have hsome : component.keys ≠ [] := by simpa using hkeys
        rw [ih]
        refine ⟨?_, ?_⟩
        · rintro ⟨hfresh, hall⟩
          exact ⟨⟨hnot, hfresh⟩, hsome, hall⟩
        · intro hyp
          obtain ⟨⟨-, hfresh⟩, -, hall⟩ := hyp
          exact ⟨hfresh, hall⟩

/-- A type's name is free to use, and every component that the type names is declared. -/
def TypeIsSound (declared : List String) (definition : ServiceTypeDefinition) : Prop :=
  definition.name ≠ notExistText ∧ definition.name ≠ notDefinedText ∧
    ∀ component ∈ definition.components.names, component ∈ declared

instance (declared : List String) (definition : ServiceTypeDefinition) :
    Decidable (TypeIsSound declared definition) :=
  inferInstanceAs (Decidable (_ ∧ _ ∧ _))

/-- No undeclared component is found exactly when all of them are declared. -/
theorem find?_undeclared_eq_none_iff {declared names : List String} :
    (names.find? fun c => !declared.contains c) = none ↔ ∀ name ∈ names, name ∈ declared := by
  rw [List.find?_eq_none]
  simp

theorem checkTypes_eq_ok_iff {declared seen : List String}
    {definitions : List ServiceTypeDefinition} :
    checkTypes declared seen definitions = .ok () ↔
      FreshNames seen (definitions.map ServiceTypeDefinition.name) ∧
        ∀ definition ∈ definitions, TypeIsSound declared definition := by
  induction definitions generalizing seen with
  | nil => exact ⟨fun _ => ⟨freshNames_nil seen, fun _ h => nomatch h⟩, fun _ => rfl⟩
  | cons definition rest ih =>
    rw [checkTypes, List.map_cons, freshNames_cons, List.forall_mem_cons]
    split
    · next hreserved =>
      refine ⟨fun h => (nomatch h), fun ⟨_, ⟨hexist, hdefined, _⟩, _⟩ => ?_⟩
      exact absurd hreserved (not_or.2 ⟨hexist, hdefined⟩)
    · next hreserved =>
      obtain ⟨hexist, hdefined⟩ := not_or.1 hreserved
      split
      · next hseen =>
        have hmem : definition.name ∈ seen := by simpa using hseen
        exact ⟨fun h => (nomatch h), fun h => absurd hmem h.1.1⟩
      · next hseen =>
        have hnot : definition.name ∉ seen := by simpa using hseen
        split
        · next hfound =>
          refine ⟨fun h => (nomatch h), fun ⟨_, ⟨_, _, hdeclared⟩, _⟩ => ?_⟩
          rw [find?_undeclared_eq_none_iff.2 hdeclared] at hfound
          exact nomatch hfound
        · next hnone =>
          have hsound : TypeIsSound declared definition :=
            ⟨hexist, hdefined, find?_undeclared_eq_none_iff.1 hnone⟩
          rw [ih]
          refine ⟨?_, ?_⟩
          · rintro ⟨hfresh, hall⟩
            exact ⟨⟨hnot, hfresh⟩, hsound, hall⟩
          · intro hyp
            obtain ⟨⟨-, hfresh⟩, -, hall⟩ := hyp
            exact ⟨hfresh, hall⟩

/-! ## Compiling -/

/-- A definition that compiles under a registry. -/
structure WellFormed (definition : ServiceDefinition) (registry : ConversionRegistry) :
    Prop where
  nameNotBlank : (Text.trim definition.name).isEmpty = false
  rulesAccepted :
    RuleSet.ofRules registry definition.knownChunks definition.rules = .ok ⟨definition.rules⟩
  componentsNodup : (definition.components.map ServiceComponent.name).Nodup
  componentsKeyed : ∀ component ∈ definition.components, component.keys ≠ []
  typesNodup : (definition.catalog.definitions.map ServiceTypeDefinition.name).Nodup
  typesSound : ∀ type ∈ definition.catalog.definitions,
    TypeIsSound (definition.components.map ServiceComponent.name) type

/-- What a well-formed definition compiles to. -/
def compiled (definition : ServiceDefinition) : CompiledService :=
  ⟨definition.name, ⟨definition.rules⟩, definition.components, definition.namedCatalog⟩

theorem checkName_eq_ok_iff {definition : ServiceDefinition} :
    definition.checkName = .ok () ↔ (Text.trim definition.name).isEmpty = false := by
  unfold checkName
  cases (Text.trim definition.name).isEmpty <;> simp

theorem ofRules_eq_ok_self_iff {registry : ConversionRegistry} {known : Option (List String)}
    {rules : List Rule} {set : RuleSet} :
    RuleSet.ofRules registry known rules = .ok set ↔
      RuleSet.ofRules registry known rules = .ok ⟨rules⟩ ∧ set = ⟨rules⟩ := by
  rw [RuleSet.ofRules_eq_ok_iff, RuleSet.ofRules_eq_ok_iff]
  exact ⟨fun ⟨hset, heach⟩ => ⟨⟨rfl, heach⟩, hset⟩, fun ⟨⟨_, heach⟩, hset⟩ => ⟨hset, heach⟩⟩

/-- A definition compiles exactly when it is well-formed, and nothing in it is changed
except an empty family. -/
theorem compile_eq_ok_iff {definition : ServiceDefinition} {registry : ConversionRegistry}
    {service : CompiledService} :
    definition.compile registry = .ok service ↔
      definition.WellFormed registry ∧ service = definition.compiled := by
  unfold compile
  simp only [bind_eq_ok_iff]
  refine ⟨?_, ?_⟩
  · intro hyp
    obtain ⟨_, hname, set, hrules, _, hcomponents, _, htypes, hservice⟩ := hyp
    obtain ⟨hself, rfl⟩ := ofRules_eq_ok_self_iff.1 hrules
    obtain ⟨hfresh, hkeys⟩ := checkComponents_eq_ok_iff.1 hcomponents
    obtain ⟨htypesFresh, hsound⟩ := checkTypes_eq_ok_iff.1 htypes
    cases hservice
    exact ⟨⟨checkName_eq_ok_iff.1 hname, hself, hfresh.1, hkeys, htypesFresh.1, hsound⟩, rfl⟩
  · rintro ⟨h, rfl⟩
    exact ⟨(), checkName_eq_ok_iff.2 h.nameNotBlank, _, h.rulesAccepted,
      (), checkComponents_eq_ok_iff.2
        ⟨freshNames_nil_iff.2 h.componentsNodup, h.componentsKeyed⟩,
      (), checkTypes_eq_ok_iff.2 ⟨freshNames_nil_iff.2 h.typesNodup, h.typesSound⟩, rfl⟩

end ServiceDefinition

/-- Naming the catalog leaves its definitions alone. -/
theorem namedCatalog_definitions {definition : ServiceDefinition} :
    definition.namedCatalog.definitions = definition.catalog.definitions := by
  unfold ServiceDefinition.namedCatalog
  split <;> rfl

end FabricFootprint
