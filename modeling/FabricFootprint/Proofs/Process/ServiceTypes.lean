import FabricFootprint.Process
import FabricFootprint.Proofs.Classification.Lead
import FabricFootprint.Proofs.Service.Compilation

/-!
FabricFootprint.Proofs.Process.ServiceTypes — what a service type says
about the extracted data.

A request passes the data of a key through three stages: components are evaluated to a bitmap,
type definitions look bits up in it by name, and a scan keeps the best of them. For a service
that was compiled the three amount to a statement about the data alone:

* `HoldsOn`, `FitsOn` — a component, and a type definition, against the data.
* `IsServiceType` — the classification of the data, without a bitmap and without a scan.
* `isServiceType_classify` — the stages give it. Component names are distinct and every name
  in the catalog is declared, so each look-up by name meets the one component it is meant for.
* `serviceTypes_of_compile` — so it is at every position of every request.
-/

namespace FabricFootprint

/-! ## Components and types against the data -/

/-- All keys of a component hold. -/
def ServiceComponent.HoldsOn (component : ServiceComponent) (data : Record) : Prop :=
  ∀ key ∈ component.keys, key.holds data = true

theorem ServiceComponent.holds_iff {component : ServiceComponent} {data : Record} :
    component.holds data = true ↔ component.HoldsOn data :=
  List.all_eq_true

/-- Every component that the definition names holds exactly when the
definition expects it to. -/
def ServiceTypeDefinition.FitsOn (definition : ServiceTypeDefinition)
    (components : List ServiceComponent) (data : Record) : Prop :=
  ∀ name expected, definition.components.get? name = some expected →
    ∀ component ∈ components, component.name = name →
      (component.HoldsOn data ↔ expected = true)

/-- The bitmap of some data: a bit for every component, and none missing for a
name in the catalog. -/
structure IsBitmapOf (service : CompiledService) (data : Record) (bitmap : Bitmap) :
    Prop where
  names : bitmap.map ComponentBit.name = service.components.map ServiceComponent.name
  bits : ∀ component ∈ service.components,
    ∃ bit, bitmap.bit? component.name = some bit ∧ (bit = true ↔ component.HoldsOn data)
  found : ∀ definition ∈ service.catalog.definitions, ∀ name ∈ definition.components.names,
    (∃ component ∈ service.components, component.name = name) ∧
      ∃ bit, bitmap.bit? name = some bit

/-- The definition at position `i` fits the data, and it is the first of those that fit and
expect most components. -/
structure IsBestFit (service : CompiledService) (data : Record) (i : Nat)
    (best : ServiceTypeDefinition) : Prop where
  position : service.catalog.definitions[i]? = some best
  fits : best.FitsOn service.components data
  most : ∀ (j : Nat) (other : ServiceTypeDefinition),
    service.catalog.definitions[j]? = some other → other.FitsOn service.components data →
      other.weight ≤ best.weight ∧ (j < i → other.weight < best.weight)

/-- The classification of some data. -/
structure IsServiceType (service : CompiledService) (data : Record)
    (result : Classification) : Prop where
  notExist : result = .notExist ↔ ∀ component ∈ service.components, ¬ component.HoldsOn data
  notDefined : result = .notDefined ↔
    (∃ component ∈ service.components, component.HoldsOn data) ∧
      ∀ definition ∈ service.catalog.definitions, ¬ definition.FitsOn service.components data
  defined : ∀ name, result = .defined name ↔
    (∃ component ∈ service.components, component.HoldsOn data) ∧
      ∃ i best, IsBestFit service data i best ∧ best.name = name
  /-- The text of the classification cannot be taken for that of another one. -/
  text : Classification.ofText result.text = result

/-! ## Bits by name -/

section Evaluated

variable {components : List ServiceComponent} {data : Record}

theorem bit?_evaluate {name : String} :
    (evaluate components data).bit? name =
      (components.find? fun component => component.name == name).map fun component =>
        component.holds data := by
  rw [Bitmap.bit?, evaluate, List.find?_map, Option.map_map]
  rfl

theorem true_bit_evaluate_iff :
    (∃ b ∈ evaluate components data, b.value = true) ↔
      ∃ component ∈ components, component.HoldsOn data := by
  rw [evaluate]
  refine ⟨?_, ?_⟩
  · intro hyp
    obtain ⟨b, hmem, hb⟩ := hyp
    obtain ⟨component, hcomponent, rfl⟩ := List.mem_map.1 hmem
    exact ⟨component, hcomponent, ServiceComponent.holds_iff.1 hb⟩
  · intro hyp
    obtain ⟨component, hcomponent, hholds⟩ := hyp
    exact ⟨_, List.mem_map_of_mem hcomponent, ServiceComponent.holds_iff.2 hholds⟩

theorem all_false_evaluate_iff :
    (∀ b ∈ evaluate components data, b.value = false) ↔
      ∀ component ∈ components, ¬ component.HoldsOn data := by
  rw [evaluate]
  simp only [List.forall_mem_map, ← ServiceComponent.holds_iff, Bool.not_eq_true]

variable (hnodup : (components.map ServiceComponent.name).Nodup)

include hnodup

/-- The bit of a declared component is the truth of this component and of no other. -/
theorem bit?_evaluate_of_mem {component : ServiceComponent} (hmem : component ∈ components) :
    (evaluate components data).bit? component.name = some (component.holds data) := by
  rw [bit?_evaluate, (find?_named_eq_some_iff hnodup).2 ⟨hmem, rfl⟩]
  rfl

/-- A definition that names declared components only qualifies exactly
when it fits the data. -/
theorem qualifies_evaluate_iff {definition : ServiceTypeDefinition}
    (hdeclared : ∀ name ∈ definition.components.names,
      name ∈ components.map ServiceComponent.name) :
    definition.qualifies (evaluate components data) = true ↔
      definition.FitsOn components data := by
  rw [ServiceTypeDefinition.qualifies_eq_true_iff]
  refine ⟨?_, ?_⟩
  · intro hbits name expected hget component hmem hname
    have hbit := hbits name expected hget
    rw [← hname, bit?_evaluate_of_mem hnodup hmem] at hbit
    rw [← ServiceComponent.holds_iff, Option.some.inj hbit]
  · intro hfits name expected hget
    obtain ⟨component, hmem, hname⟩ :=
      List.mem_map.1 (hdeclared name (FieldMap.mem_names_iff.2 ⟨expected, hget⟩))
    have htruth := hfits name expected hget component hmem hname
    rw [← hname, bit?_evaluate_of_mem hnodup hmem]
    rw [← ServiceComponent.holds_iff] at htruth
    rw [Bool.eq_iff_iff.2 htruth]

theorem score?_evaluate_iff {definition : ServiceTypeDefinition} {w : Nat}
    (hdeclared : ∀ name ∈ definition.components.names,
      name ∈ components.map ServiceComponent.name) :
    definition.score? (evaluate components data) = some w ↔
      definition.FitsOn components data ∧ definition.weight = w := by
  rw [ServiceTypeDefinition.score?_eq_some_iff, qualifies_evaluate_iff hnodup hdeclared]

end Evaluated

/-! ## Compiled services -/

section Compiled

variable {definition : ServiceDefinition} {registry : ConversionRegistry} {data : Record}

variable (h : definition.WellFormed registry)

include h

/-- A type in the catalog of a compiled service names declared components only. -/
theorem declared_of_wellFormed {type : ServiceTypeDefinition}
    (htype : type ∈ definition.namedCatalog.definitions) :
    ∀ name ∈ type.components.names,
      name ∈ definition.components.map ServiceComponent.name := by
  rw [namedCatalog_definitions] at htype
  exact (h.typesSound type htype).2.2

theorem isBitmapOf_evaluate :
    IsBitmapOf definition.compiled data (evaluate definition.components data) where
  names := by
    rw [evaluate, List.map_map]
    rfl
  bits := by
    intro component hmem
    exact ⟨_, bit?_evaluate_of_mem h.componentsNodup hmem, ServiceComponent.holds_iff⟩
  found := by
    intro type htype name hname
    obtain ⟨component, hmem, rfl⟩ :=
      List.mem_map.1 (declared_of_wellFormed h htype name hname)
    exact ⟨⟨component, hmem, rfl⟩, _, bit?_evaluate_of_mem h.componentsNodup hmem⟩

/-- Leading among the scores of a bitmap is leading among the definitions that fit its
data. -/
theorem leads_evaluate_iff {i : Nat} {best : ServiceTypeDefinition} :
    (∃ w, Leads (evaluate definition.components data)
        definition.namedCatalog.definitions i best w) ↔
      IsBestFit definition.compiled data i best := by
  have hscore {j : Nat} {type : ServiceTypeDefinition} {w : Nat}
      (hget : definition.namedCatalog.definitions[j]? = some type) :
      type.score? (evaluate definition.components data) = some w ↔
        type.FitsOn definition.components data ∧ type.weight = w :=
    score?_evaluate_iff h.componentsNodup
      (declared_of_wellFormed h (List.mem_of_getElem? hget))
  refine ⟨?_, ?_⟩
  · rintro ⟨w, hleads⟩
    obtain ⟨hfits, rfl⟩ := (hscore hleads.position).1 hleads.score
    refine ⟨hleads.position, hfits, fun j other hget hother => ?_⟩
    have hv := (hscore hget).2 ⟨hother, rfl⟩
    exact ⟨hleads.score_le hget hv, fun hlt => hleads.before j other _ hlt hget hv⟩
  · intro hyp
    obtain ⟨(hget : definition.namedCatalog.definitions[i]? = some best), hfits, hmost⟩ := hyp
    refine ⟨best.weight, hget, (hscore hget).2 ⟨hfits, rfl⟩, ?_, ?_⟩
    · intro j other v hlt hother hv
      obtain ⟨hofits, rfl⟩ := (hscore hother).1 hv
      exact (hmost j other hother hofits).2 hlt
    · intro j other v _ hother hv
      obtain ⟨hofits, rfl⟩ := (hscore hother).1 hv
      exact (hmost j other hother hofits).1

theorem isServiceType_classify :
    IsServiceType definition.compiled data
      (classify (evaluate definition.components data) definition.namedCatalog) where
  notExist := by
    rw [classify_eq_notExist_iff, all_false_evaluate_iff]
    rfl
  notDefined := by
    rw [classify_eq_notDefined_iff, true_bit_evaluate_iff]
    refine and_congr Iff.rfl (forall₂_congr fun type htype => ?_)
    show type.score? (evaluate definition.components data) = none ↔
      ¬ type.FitsOn definition.components data
    rw [← qualifies_evaluate_iff h.componentsNodup (declared_of_wellFormed h htype),
      ServiceTypeDefinition.score?]
    simp
  defined := by
    intro name
    rw [classify_eq_defined_iff, true_bit_evaluate_iff]
    refine and_congr Iff.rfl (exists₂_congr fun i best => ?_)
    rw [← leads_evaluate_iff h, exists_and_right]
  text := by
    refine Classification.ofText_text_of_free fun name hname => ?_
    obtain ⟨-, i, best, w, hleads, rfl⟩ := classify_eq_defined_iff.1 hname
    have hmem := List.mem_of_getElem? hleads.position
    rw [namedCatalog_definitions] at hmem
    obtain ⟨hexist, hdefined, -⟩ := h.typesSound best hmem
    exact ⟨hexist, hdefined⟩

end Compiled

/-! ## Requests -/

namespace ProcessedData

/-- The footprint, the bitmaps and the classifications have the same devices and keys, at
the same positions. -/
structure Aligned (processed : ProcessedData) : Prop where
  layouts : processed.layouts.map (fun d => (d.device, d.layouts.map ServiceLayout.key)) =
    processed.footprint.map fun d => (d.device, d.entries.map DataEntry.key)
  types : processed.types.map (fun d => (d.device, d.types.map ServiceTypeEntry.key)) =
    processed.footprint.map fun d => (d.device, d.entries.map DataEntry.key)

/-- The data at a device's position and a key's position. -/
def dataAt? (processed : ProcessedData) (i j : Nat) : Option Record :=
  (processed.footprint[i]?.bind fun d => d.entries[j]?).map DataEntry.data

/-- The bitmap at a device's position and a key's position. -/
def bitmapAt? (processed : ProcessedData) (i j : Nat) : Option Bitmap :=
  (processed.layouts[i]?.bind fun d => d.layouts[j]?).map ServiceLayout.bitmap

/-- The classification at a device's position and a key's position. -/
def typeAt? (processed : ProcessedData) (i j : Nat) : Option Classification :=
  (processed.types[i]?.bind fun d => d.types[j]?).map ServiceTypeEntry.serviceType

end ProcessedData

section Request

variable (run : RunId) (service : CompiledService) (store : ChunkStore) (keys : List String)
  (registry : ConversionRegistry)

theorem aligned_process :
    (process run service store keys registry).report.processed.Aligned where
  layouts := by
    simp only [process, buildLayouts, List.map_map]
    refine List.map_congr_left fun d _ => ?_
    show (d.device, (d.entries.map _).map ServiceLayout.key) = _
    rw [List.map_map]
    rfl
  types := by
    simp only [process, buildLayouts, classifyLayouts, List.map_map]
    refine List.map_congr_left fun d _ => ?_
    show (d.device, ((d.entries.map _).map _).map ServiceTypeEntry.key) = _
    rw [List.map_map, List.map_map]
    rfl

theorem bitmapAt?_process (i j : Nat) :
    (process run service store keys registry).report.processed.bitmapAt? i j =
      ((process run service store keys registry).report.processed.dataAt? i j).map
        (evaluate service.components) := by
  simp only [process, ProcessedData.bitmapAt?, ProcessedData.dataAt?, buildLayouts,
    List.getElem?_map]
  cases (assemble store keys service.rules registry).report.footprint[i]? with
  | none => rfl
  | some device =>
    show (device.entries.map _)[j]?.map ServiceLayout.bitmap =
      (device.entries[j]?.map DataEntry.data).map _
    rw [List.getElem?_map]
    cases device.entries[j]? <;> rfl

theorem typeAt?_process (i j : Nat) :
    (process run service store keys registry).report.processed.typeAt? i j =
      ((process run service store keys registry).report.processed.dataAt? i j).map fun data =>
        classify (evaluate service.components data) service.catalog := by
  simp only [process, ProcessedData.typeAt?, ProcessedData.dataAt?, classifyLayouts,
    buildLayouts, List.getElem?_map]
  cases (assemble store keys service.rules registry).report.footprint[i]? with
  | none => rfl
  | some device =>
    show ((device.entries.map _).map _)[j]?.map ServiceTypeEntry.serviceType =
      (device.entries[j]?.map DataEntry.data).map _
    rw [List.getElem?_map, List.getElem?_map]
    cases device.entries[j]? <;> rfl

end Request

/-- Every request of a compiled service gives, at each position of a device and a key, the
bitmap and the classification of the data at this position, and no other positions. -/
theorem serviceTypes_of_compile {definition : ServiceDefinition}
    {registry : ConversionRegistry} {service : CompiledService}
    (h : definition.compile registry = .ok service) (run : RunId) (store : ChunkStore)
    (keys : List String) (runRegistry : ConversionRegistry) :
    let processed := (process run service store keys runRegistry).report.processed
    (service.components.map ServiceComponent.name).Nodup ∧ processed.Aligned ∧
      ∀ i j data, processed.dataAt? i j = some data →
        ∃ bitmap result, processed.bitmapAt? i j = some bitmap ∧
          processed.typeAt? i j = some result ∧
          IsBitmapOf service data bitmap ∧ IsServiceType service data result := by
  intro processed
  obtain ⟨hwellFormed, rfl⟩ := ServiceDefinition.compile_eq_ok_iff.1 h
  refine ⟨hwellFormed.componentsNodup, aligned_process run _ store keys runRegistry, ?_⟩
  intro i j data hdata
  refine ⟨_, _, ?_, ?_, isBitmapOf_evaluate hwellFormed, isServiceType_classify hwellFormed⟩
  · rw [bitmapAt?_process, hdata]
    rfl
  · rw [typeAt?_process, hdata]
    rfl

/-- A service of two types that both ask for a VLAN; the second one asks for a gateway too. -/
theorem serviceTypes_of_compile_gateway :
    let definition : ServiceDefinition :=
      { name := "epg"
        chunks := []
        rules := [{ (default : Rule) with
          chunk := "groups", destName := "name", commonKeys := ["vlan", "gateway"] }]
        components := [⟨"switched", [⟨"vlan", .str anyValue, .equal⟩]⟩,
          ⟨"routed", [⟨"gateway", .str anyValue, .equal⟩]⟩]
        catalog := ⟨"", [⟨"l2", FieldMap.ofList [("switched", true)]⟩,
          ⟨"l3", FieldMap.ofList [("switched", true), ("routed", true)]⟩]⟩ }
    let group : Record :=
      FieldMap.ofList [("name", .str "web"), ("vlan", .int 7), ("gateway", .str "10.0.0.1")]
    let store : ChunkStore := ⟨[⟨"leaf-1", FieldMap.ofList [("groups", [group])]⟩]⟩
    definition.compile .standard = .ok definition.compiled ∧
      ∃ data, IsServiceType definition.compiled data (.defined "l3") ∧
        ((process ⟨"r-1"⟩ definition.compiled store ["web"]
          .standard).report.processed.dataAt? 0 0) =
          some data := by
  intro definition group store
  have named : (Text.trim definition.name).isEmpty = false := by
    show (Text.trim "epg").isEmpty = false
    decide
  have compiles : definition.compile .standard = .ok definition.compiled :=
    ServiceDefinition.compile_eq_ok_iff.2
      ⟨⟨named, rfl, by decide, by decide, by decide, by decide⟩, rfl⟩
  obtain ⟨-, -, htypes⟩ := serviceTypes_of_compile compiles ⟨"r-1"⟩ store ["web"] .standard
  obtain ⟨_, result, -, hresult, -, htype⟩ := htypes 0 0 _ rfl
  cases hresult.symm.trans (rfl : _ = some (Classification.defined "l3"))
  exact ⟨compiles, _, htype, rfl⟩

end FabricFootprint
