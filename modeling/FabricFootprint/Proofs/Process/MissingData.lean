import FabricFootprint.Proofs.Assembly.Report
import FabricFootprint.Proofs.Extraction.Reach
import FabricFootprint.Proofs.Process.ServiceTypes

/-!
FabricFootprint.Proofs.Process.MissingData — data that is missing can only fail a component.

* `FieldMap.Extends` — a map has all that another one has, and possibly more.
* `ComponentKey.holds_mono`, `ServiceComponent.holds_mono`, `evaluate_mono` — every kind of
  key asks for something that is there, the keys of kind `notEqual` included, so what holds on
  some data holds on all data that extends it.
* `ServiceComponent.holds_empty` — on no data only a component without keys holds, and a
  definition with such a component does not compile.
* `DeviceChunks.LacksRecords` — the rules of a list find no record on a device. None of them
  writes anything then: `Progress.step_data_of_records_eq_nil` for one rule,
  `Extraction.run_data_of_lacksRecords` for a run.
* `missing_data_only_fails` — both halves, down to the report of a request.
-/

namespace FabricFootprint

/-! ## Data that extends other data -/

namespace FieldMap

variable {α : Type} {wider data : FieldMap α}

/-- The map has every field of the other one, with the same value. -/
def Extends (wider data : FieldMap α) : Prop :=
  ∀ name value, data.get? name = some value → wider.get? name = some value

theorem extends_iff_entries :
    wider.Extends data ↔ ∀ e ∈ data.entries, wider.get? e.1 = some e.2 := by
  simp only [Extends, Prod.forall, mem_entries_iff]

instance [DecidableEq α] : Decidable (wider.Extends data) :=
  decidable_of_iff _ extends_iff_entries.symm

theorem Extends.names (h : wider.Extends data) {name : String} (hname : name ∈ data.names) :
    name ∈ wider.names := by
  obtain ⟨value, hget⟩ := mem_names_iff.1 hname
  exact mem_names_iff.2 ⟨value, h name value hget⟩

theorem Extends.any (h : wider.Extends data) {name : String} {p : α → Bool}
    (hany : (data.get? name).any p = true) : (wider.get? name).any p = true := by
  obtain ⟨value, hget, hp⟩ := (Option.any_eq_true ..).1 hany
  exact (Option.any_eq_true ..).2 ⟨value, h name value hget, hp⟩

end FieldMap

/-! ## Components -/

section Monotone

variable {wider data : Record} (h : wider.Extends data)

include h

theorem ComponentKey.holds_mono {key : ComponentKey} (hholds : key.holds data = true) :
    key.holds wider = true := by
  unfold holds at hholds ⊢
  cases hmatch : key.matchType with
  | equal =>
    rw [hmatch] at hholds
    exact h.any hholds
  | notEqual =>
    rw [hmatch] at hholds
    exact h.any hholds
  | subkey =>
    rw [hmatch] at hholds
    obtain ⟨name, hname, hcontains⟩ := List.any_eq_true.1 hholds
    exact List.any_eq_true.2 ⟨name, h.names hname, hcontains⟩

theorem ServiceComponent.holds_mono {component : ServiceComponent}
    (hholds : component.holds data = true) : component.holds wider = true := by
  rw [holds_iff] at hholds ⊢
  intro key hkey
  exact ComponentKey.holds_mono h (hholds key hkey)

/-- A true bit stays at its position. -/
theorem evaluate_mono {components : List ServiceComponent} {i : Nat} {bit : ComponentBit}
    (hget : (evaluate components data)[i]? = some bit) (hbit : bit.value = true) :
    (evaluate components wider)[i]? = some bit := by
  rw [evaluate, List.getElem?_map] at hget ⊢
  obtain ⟨component, hcomponent, rfl⟩ := Option.map_eq_some_iff.1 hget
  have hdata : component.holds data = true := hbit
  simp [hcomponent, hdata, ServiceComponent.holds_mono h hdata]

end Monotone

theorem ComponentKey.holds_empty (key : ComponentKey) : key.holds FieldMap.empty = false := by
  unfold holds
  cases key.matchType <;> rfl

/-- Without data only the empty conjunction holds. -/
theorem ServiceComponent.holds_empty {component : ServiceComponent} :
    component.holds FieldMap.empty = true ↔ component.keys = [] := by
  rw [holds_iff, HoldsOn]
  simp [ComponentKey.holds_empty, List.eq_nil_iff_forall_not_mem]

/-- When every component has a key, the bitmap of no data has the names of the
components and no true bit. -/
theorem evaluate_empty {components : List ServiceComponent}
    (hkeyed : ∀ component ∈ components, component.keys ≠ []) :
    evaluate components FieldMap.empty = components.map fun component =>
      ⟨component.name, false⟩ := by
  refine List.map_congr_left ?_
  intro component hmem
  have hfalse : component.holds FieldMap.empty = false := by
    rw [← Bool.not_eq_true, ServiceComponent.holds_empty]
    exact hkeyed component hmem
  rw [hfalse]

/-! ## Chunks without records -/

namespace DeviceChunks

/-- For every rule the device has no chunk of its name, or one without a record. -/
def LacksRecords (device : DeviceChunks) (rules : List Rule) : Prop :=
  ∀ rule ∈ rules, device.chunks.get? rule.chunk = none ∨
    device.chunks.get? rule.chunk = some []

instance (device : DeviceChunks) (rules : List Rule) :
    Decidable (device.LacksRecords rules) :=
  inferInstanceAs (Decidable (∀ rule ∈ rules, _ ∨ _))

theorem records_eq_nil_iff {device : DeviceChunks} {chunk : String} :
    device.records chunk = [] ↔
      device.chunks.get? chunk = none ∨ device.chunks.get? chunk = some [] := by
  rw [records]
  cases device.chunks.get? chunk <;> simp

end DeviceChunks

/-- A rule whose chunk has no record selects nothing, so it writes nothing. -/
theorem Progress.step_data_of_records_eq_nil {p q : Progress} {context : RunContext}
    {index : Nat} {rule : Rule} (hnil : context.device.records rule.chunk = [])
    (h : p.step context index rule = .ok q) : q.data = p.data := by
  have hselection : rule.selection context p.data = [] := by
    rw [List.eq_nil_iff_forall_not_mem]
    intro record hrecord
    have hmem := (Rule.mem_selection_iff.1 hrecord).1
    rw [hnil] at hmem
    exact nomatch hmem
  rw [(step_fields h).1, Rule.writesFrom, hselection, Rule.writes_nil, applyWrites_nil]

/-- The induction is along the run; the rules that have run lack records as all of them do. -/
theorem Extraction.run_data_of_lacksRecords {context : RunContext} {rules : List Rule}
    {p : Progress} (hlacks : context.device.LacksRecords rules)
    (h : run context 0 rules Progress.start = .ok p) : p.data = FieldMap.empty := by
  refine run_induction (motive := fun rules p => context.device.LacksRecords rules →
    p.data = FieldMap.empty) ?start ?step h hlacks
  case start =>
    intro _
    rfl
  case step =>
    intro before rule p q _ hstep ih hlacks
    have hnil : context.device.records rule.chunk = [] :=
      DeviceChunks.records_eq_nil_iff.2 (hlacks rule (by simp))
    rw [Progress.step_data_of_records_eq_nil hnil hstep]
    exact ih fun other hother => hlacks other (List.mem_append_left _ hother)

theorem extract_data_of_lacksRecords {key : String} {device : DeviceChunks} {rules : RuleSet}
    {registry : ConversionRegistry} {x : Extraction}
    (hlacks : device.LacksRecords rules.rules)
    (h : extract key device rules registry = .ok x) : x.data = FieldMap.empty := by
  obtain ⟨p, hreach, rfl⟩ := extract_eq_ok_iff.1 h
  have hrun := reaches_length_iff.1 hreach
  exact Extraction.run_data_of_lacksRecords hlacks hrun

/-- The keys that complete on such a device are entered without data. -/
theorem entries_of_lacksRecords {device : DeviceChunks} {rules : RuleSet}
    {registry : ConversionRegistry} (hlacks : device.LacksRecords rules.rules)
    (keys : List String) :
    (keys.filterMap fun key => reportedData? key (extract key device rules registry)) =
      (keys.filter (Completes rules registry device)).map fun key =>
        ⟨key, FieldMap.empty⟩ := by
  rw [← keys_entry, List.map_map, eq_comm]
  -- an entry is determined by its key, since it has no data
  refine (List.map_congr_left ?_).trans (List.map_id _)
  intro entry hentry
  obtain ⟨key, -, hreported⟩ := List.mem_filterMap.1 hentry
  cases hx : extract key device rules registry with
  | error e =>
    rw [hx] at hreported
    exact nomatch hreported
  | ok x =>
    rw [hx] at hreported
    cases hreported
    simp [extract_data_of_lacksRecords hlacks hx]

/-! ## Compiled services -/

/-- A service finds nothing in data without fields, and on a device where its rules have
no record to work on. -/
structure CompiledService.FindsNothing (service : CompiledService) : Prop where
  bits : ∀ bit ∈ evaluate service.components FieldMap.empty, bit.value = false
  classified :
    classify (evaluate service.components FieldMap.empty) service.catalog = .notExist
  extracted : ∀ (device : DeviceChunks), device.LacksRecords service.rules.rules →
    ∀ (key : String) (registry : ConversionRegistry) (x : Extraction),
      extract key device service.rules registry = .ok x →
        x.data = FieldMap.empty ∧
          classify (evaluate service.components x.data) service.catalog = .notExist
  /-- In the report of a request such a device has exactly the keys that complete, and each of
  them is entered without data, with false bits only, and as not existing. -/
  reported : ∀ (run : RunId) (store : ChunkStore) (keys : List String)
    (registry : ConversionRegistry) (i : Nat) (device : DeviceChunks),
    store.devices[i]? = some device → device.LacksRecords service.rules.rules →
      let processed := (process run service store keys registry).report.processed
      let completed := keys.filter (Completes service.rules registry device)
      processed.footprint[i]? =
          some ⟨device.name, completed.map fun key => ⟨key, FieldMap.empty⟩⟩ ∧
        processed.layouts[i]? =
          some ⟨device.name, completed.map fun key =>
            ⟨key, service.components.map fun component => ⟨component.name, false⟩⟩⟩ ∧
        processed.types[i]? =
          some ⟨device.name, completed.map fun key => ⟨key, .notExist⟩⟩

theorem findsNothing_of_compile {definition : ServiceDefinition}
    {registry : ConversionRegistry} {service : CompiledService}
    (h : definition.compile registry = .ok service) :
    service.FindsNothing := by
  -- the one thing that compiling adds here: a component without keys would hold on no data
  have hkeyed : ∀ component ∈ service.components, component.keys ≠ [] := by
    obtain ⟨hwellFormed, rfl⟩ := ServiceDefinition.compile_eq_ok_iff.1 h
    exact hwellFormed.componentsKeyed
  have hbits : ∀ bit ∈ evaluate service.components FieldMap.empty, bit.value = false := by
    rw [evaluate_empty hkeyed]
    simp
  have hclassified : classify (evaluate service.components FieldMap.empty) service.catalog =
      .notExist := classify_of_all_false hbits
  refine ⟨hbits, hclassified, ?extracted, ?reported⟩
  case extracted =>
    intro device hlacks key runRegistry x hx
    have hdata := extract_data_of_lacksRecords hlacks hx
    exact ⟨hdata, by rw [hdata, hclassified]⟩
  case reported =>
    intro run store keys runRegistry i device hdevice hlacks processed completed
    have hfootprint : processed.footprint[i]? =
        some ⟨device.name, completed.map fun key => ⟨key, FieldMap.empty⟩⟩ := by
      show (assemble store keys service.rules runRegistry).report.footprint[i]? = _
      rw [report_footprint, List.getElem?_map, hdevice, Option.map_some,
        entries_of_lacksRecords hlacks]
    have hlayouts : processed.layouts[i]? = some ⟨device.name, completed.map fun key =>
        ⟨key, service.components.map fun component => ⟨component.name, false⟩⟩⟩ := by
      show (buildLayouts service.components processed.footprint)[i]? = _
      simp [buildLayouts, hfootprint, evaluate_empty hkeyed]
    refine ⟨hfootprint, hlayouts, ?_⟩
    show (classifyLayouts processed.layouts service.catalog)[i]? = _
    rw [evaluate_empty hkeyed] at hclassified
    simp [classifyLayouts, hlayouts, hclassified]

/-- A bit that is true on some data is true on all data that extends it, and a service that
was compiled finds nothing where there is nothing to find. Its components are the reason:
none is without keys. -/
theorem missing_data_only_fails :
    (∀ (components : List ServiceComponent) (data wider : Record), wider.Extends data →
      ∀ (i : Nat) (bit : ComponentBit), (evaluate components data)[i]? = some bit →
        bit.value = true → (evaluate components wider)[i]? = some bit) ∧
    ∀ (definition : ServiceDefinition) (registry : ConversionRegistry)
      (service : CompiledService),
      definition.compile registry = .ok service → service.FindsNothing := by
  constructor
  · intro components data wider h i bit hget hbit
    exact evaluate_mono h hget hbit
  · intro definition registry service h
    exact findsNothing_of_compile h

/-- The VLAN of the wider data fulfils one more component, and leaves the test of the port as
it was. On a device with one chunk empty and the other not there at all, the key of the
request does not exist. -/
theorem missing_data_only_fails_gateway :
    let components : List ServiceComponent :=
      [⟨"switched", [⟨"vlan", .null, .subkey⟩]⟩, ⟨"enabled", [⟨"port", .int 0, .notEqual⟩]⟩]
    let data : Record := FieldMap.ofList [("port", .int 8)]
    let wider : Record := FieldMap.ofList [("port", .int 8), ("vlan.1", .int 7)]
    let definition : ServiceDefinition :=
      { name := "epg"
        chunks := []
        rules := [{ (default : Rule) with
            chunk := "groups", destName := "name", commonKeys := ["port"] },
          { (default : Rule) with
            chunk := "domains", destName := "name", commonKeys := ["vlan"] }]
        components := components
        catalog := ⟨"", [⟨"bare", FieldMap.ofList [("switched", false)]⟩]⟩ }
    let device : DeviceChunks := ⟨"leaf-1", FieldMap.ofList [("groups", [])]⟩
    (wider.Extends data ∧ (evaluate components data)[1]? = some ⟨"enabled", true⟩ ∧
        (evaluate components wider)[1]? = some ⟨"enabled", true⟩ ∧
        (evaluate components data)[0]? ≠ (evaluate components wider)[0]?) ∧
      definition.compile .standard = .ok definition.compiled ∧
      device.LacksRecords definition.rules ∧
      (∃ x, extract "web" device ⟨definition.rules⟩ .standard = .ok x ∧
        x.data = FieldMap.empty) ∧
      (process ⟨"r-1"⟩ definition.compiled ⟨[device]⟩ ["web"]
        .standard).report.processed.types[0]? =
        some ⟨"leaf-1", [⟨"web", .notExist⟩]⟩ := by
  intro components data wider definition device
  have hextends : wider.Extends data := by decide
  have compiles : definition.compile .standard = .ok definition.compiled :=
    ServiceDefinition.compile_eq_ok_iff.2
      ⟨⟨by decide, rfl, by decide, by decide, by decide, by decide⟩, rfl⟩
  have hlacks : device.LacksRecords definition.rules := by decide
  have hnothing := missing_data_only_fails.2 definition .standard definition.compiled compiles
  refine ⟨⟨hextends, rfl, ?enabled, by decide⟩, compiles, hlacks, ?extracted, ?reported⟩
  case enabled =>
    exact missing_data_only_fails.1 components data wider hextends 1 ⟨"enabled", true⟩ rfl rfl
  case extracted =>
    exact ⟨_, rfl, (hnothing.extracted device hlacks "web" .standard _ rfl).1⟩
  case reported =>
    exact (hnothing.reported ⟨"r-1"⟩ ⟨[device]⟩ ["web"] .standard 0 device rfl hlacks).2.2

end FabricFootprint
