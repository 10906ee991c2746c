import FabricFootprint.Json.Writer
import FabricFootprint.Proofs.Assembly.Report
import FabricFootprint.Proofs.Document.Reports
import FabricFootprint.Proofs.Extraction.Provenance
import FabricFootprint.Proofs.Json.RoundTrip
import FabricFootprint.Proofs.Json.Scalar
import FabricFootprint.Proofs.Process.ServiceTypes

/-!
FabricFootprint.Proofs.Document.ReportFiles — the reports of compiled services,
written and read back.

* `ChunkStore.values` — all values that a store holds. Extraction only copies them, so what a
  report holds is among them.
* `isNamed_of_process` — a compiled service has no type with a reserved name, so its
  classifications are told apart by their texts.
* `isFinite_of_read` — a store that is read from a JSON text holds no NaN and no infinity.
* `givenBack_of_process` — a report of such a service over such a store is given back by
  every format that gives back finite values, and by JSON texts when the numerals of its
  numbers are read exactly.
-/

namespace FabricFootprint

/-! ## Values of a store -/

def DeviceChunks.values (device : DeviceChunks) : List Value :=
  device.chunks.values.flatMap fun records => records.flatMap FieldMap.values

/-- All values of all records of a store. -/
def ChunkStore.values (store : ChunkStore) : List Value :=
  store.devices.flatMap DeviceChunks.values

theorem DeviceChunks.mem_values_iff {device : DeviceChunks} {v : Value} :
    v ∈ device.values ↔ ∃ chunk records, device.chunks.get? chunk = some records ∧
      ∃ record ∈ records, ∃ field, record.get? field = some v := by
  simp only [values, List.mem_flatMap, FieldMap.mem_values_iff]
  grind

/-- The records of a chunk hold values of the device. -/
theorem DeviceChunks.mem_values_of_mem_records {device : DeviceChunks} {chunk : String}
    {record : Record} (hrecord : record ∈ device.records chunk) {field : String} {v : Value}
    (hv : record.get? field = some v) : v ∈ device.values := by
  rw [records] at hrecord
  cases hchunk : device.chunks.get? chunk with
  | none =>
    rw [hchunk] at hrecord
    exact nomatch hrecord
  | some records =>
    rw [hchunk] at hrecord
    exact mem_values_iff.2 ⟨chunk, records, hchunk, record, hrecord, field, hv⟩

/-- A rule copies values of the record. -/
theorem Rule.Copies.exists_get? {rule : Rule} {records : List Record} {field : String}
    {v : Value} {record : Record} (h : rule.Copies records field v record) :
    ∃ key, record.get? key = some v := by
  cases h with
  | common _ _ value _ => exact ⟨_, value⟩
  | split _ _ _ value _ _ => exact ⟨_, value⟩
  | combine _ _ value _ _ _ => exact ⟨_, value⟩

/-- Extracted data hold values of the device. -/
theorem mem_values_of_extract {key : String} {device : DeviceChunks} {rules : RuleSet}
    {registry : ConversionRegistry} {x : Extraction}
    (h : extract key device rules registry = .ok x) {field : String} {v : Value}
    (hv : x.data.get? field = some v) : v ∈ device.values := by
  obtain ⟨q, hreach, rfl⟩ := extract_eq_ok_iff.1 h
  obtain ⟨i, rule, p, -, -, hwrite⟩ :=
    Extraction.exists_write (reaches_length_iff.1 hreach) hv
  obtain ⟨record, hrecord, hcopies⟩ := Rule.copies_of_mem_writes hwrite
  obtain ⟨hchunk, -⟩ := Rule.mem_selection_iff.1 hrecord
  obtain ⟨name, hname⟩ := hcopies.exists_get?
  exact DeviceChunks.mem_values_of_mem_records hchunk hname

/-- The footprint of a batch holds values of the store. -/
theorem keeps_of_assemble {kept : Value → Prop} {store : ChunkStore}
    (hkept : ∀ v ∈ store.values, kept v) (keys : List String) (rules : RuleSet)
    (registry : ConversionRegistry) :
    (assemble store keys rules registry).report.footprint.Keeps kept := by
  intro d hd entry hentry field v hv
  rw [report_footprint] at hd
  obtain ⟨device, hdevice, rfl⟩ := List.mem_map.1 hd
  obtain ⟨key, -, hdata⟩ := List.mem_filterMap.1 hentry
  cases hx : extract key device rules registry with
  | error e =>
    rw [hx] at hdata
    exact nomatch hdata
  | ok x =>
    rw [hx] at hdata
    cases hdata
    exact hkept v (List.mem_flatMap.2 ⟨device, hdevice, mem_values_of_extract hx hv⟩)

/-! ## Classifications of a compiled service -/

theorem isNamed_of_process {definition : ServiceDefinition} {registry : ConversionRegistry}
    (h : definition.WellFormed registry) (run : RunId) (store : ChunkStore)
    (keys : List String) (runRegistry : ConversionRegistry) :
    ∀ device ∈
        (process run definition.compiled store keys runRegistry).report.processed.types,
      ∀ entry ∈ device.types, entry.serviceType.IsNamed := by
  intro device hdevice entry hentry
  obtain ⟨layouts, hlayouts, rfl⟩ := List.mem_map.1 hdevice
  obtain ⟨layout, hlayout, rfl⟩ := List.mem_map.1 hentry
  obtain ⟨d, -, rfl⟩ := List.mem_map.1 hlayouts
  obtain ⟨data, -, rfl⟩ := List.mem_map.1 hlayout
  exact (isServiceType_classify h).text

/-! ## Stores that are read -/

section ReadStores

variable {json : Json}

theorem isFinite_of_record? {record : Record} (h : json.record? = some record)
    {field : String} {v : Value} (hv : record.get? field = some v) : v.isFinite = true := by
  obtain ⟨node, hnode⟩ := Node.exists_of_map? h hv
  cases node with
  | scalar s => exact JsonScalar.isFinite_of_value? hnode
  | list items => exact nomatch hnode
  | record members => exact nomatch hnode

theorem isFinite_of_deviceChunks {device : DeviceChunks}
    (h : DeviceChunks.decode? json = some device) {v : Value} (hv : v ∈ device.values) :
    v.isFinite = true := by
  obtain ⟨fields, -, h⟩ := Option.bind_eq_some_iff.1 h
  obtain ⟨name, -, h⟩ := Option.bind_eq_some_iff.1 h
  obtain ⟨chunks, hchunks, h⟩ := Option.bind_eq_some_iff.1 h
  cases h
  obtain ⟨chunk, records, hget, record, hrecord, field, hvalue⟩ :=
    DeviceChunks.mem_values_iff.1 hv
  unfold Node.Fields.withDefault at hchunks
  split at hchunks
  · cases hchunks
    exact nomatch hget
  · obtain ⟨node, hnode⟩ := Node.exists_of_map? hchunks hget
    obtain ⟨item, hitem⟩ := Node.exists_of_items? hnode hrecord
    exact isFinite_of_record? hitem hvalue

/-- A store that is read from a JSON text holds no NaN and no infinity. -/
theorem isFinite_of_read {text : String} {store : ChunkStore}
    (h : (Json.read text).bind ChunkStore.decode? = some store) :
    ∀ v ∈ store.values, v.isFinite = true := by
  intro v hv
  obtain ⟨json, -, hdecode⟩ := Option.bind_eq_some_iff.1 h
  obtain ⟨devices, hdevices, rfl⟩ := Option.map_eq_some_iff.1 hdecode
  obtain ⟨device, hdevice, hvalue⟩ := List.mem_flatMap.1 hv
  obtain ⟨node, hnode⟩ := Node.exists_of_items? hdevices hdevice
  exact isFinite_of_deviceChunks hnode hvalue

end ReadStores

/-! ## Report files -/

/-- The report and the footprint of it that are read are those that were written, and what is
computed from the footprint that was read is what is computed from the footprint itself. -/
structure ProcessReport.GivenBack (report : ProcessReport) (readReport : Option ProcessReport)
    (readFootprint : Option Footprint) : Prop where
  whole : readReport = some report
  footprint : readFootprint = some report.processed.footprint
  selection : ∀ names, readFootprint.map (selectFields · names) =
    some (selectFields report.processed.footprint names)
  desired : ∀ observed, readFootprint.map (diffFootprints · observed) =
    some (diffFootprints report.processed.footprint observed)
  observed : ∀ desired, readFootprint.map (diffFootprints desired ·) =
    some (diffFootprints desired report.processed.footprint)

theorem ProcessReport.givenBack_of_read {report : ProcessReport}
    {readReport : Option ProcessReport} {readFootprint : Option Footprint}
    (hreport : readReport = some report)
    (hfootprint : readFootprint = some report.processed.footprint) :
    report.GivenBack readReport readFootprint where
  whole := hreport
  footprint := hfootprint
  selection _ := by rw [hfootprint, Option.map_some]
  desired _ := by rw [hfootprint, Option.map_some]
  observed _ := by rw [hfootprint, Option.map_some]

section Process

variable {definition : ServiceDefinition} {registry : ConversionRegistry} {store : ChunkStore}

/-- A report of a compiled service is given back by every format that gives back the
values of the store. -/
theorem givenBack_of_rereads {σ : Type} [Scalar σ] {write : Datum → σ} {kept : Value → Prop}
    (hwrite : Rereads write kept) (h : definition.WellFormed registry)
    (hkept : ∀ v ∈ store.values, kept v) (run : RunId) (keys : List String)
    (runRegistry : ConversionRegistry) :
    let report := (process run definition.compiled store keys runRegistry).report
    report.GivenBack (ProcessReport.decode? (report.encode.map write))
      (Footprint.decode? ((Footprint.encode report.processed.footprint).map write)) := by
  intro report
  have hkeeps : report.processed.footprint.Keeps kept :=
    keeps_of_assemble hkept keys definition.compiled.rules runRegistry
  exact ProcessReport.givenBack_of_read
    (ProcessReport.decode?_encode hwrite hkeeps
      (isNamed_of_process h run store keys runRegistry))
    (Footprint.decode?_encode hwrite hkeeps)

end Process

/-- Report files are faithful. Over a store without NaNs and infinities, such as every store
that is read from a JSON text, a report of a compiled service and its footprint are given back
by every format that gives back finite values; JSON texts do so, in either form, when the
numerals that the numbers of the store are written as are read as these numbers. -/
theorem givenBack_of_process {definition : ServiceDefinition} {registry : ConversionRegistry}
    {service : CompiledService} (hcompile : definition.compile registry = .ok service)
    {store : ChunkStore} (hfinite : ∀ v ∈ store.values, v.isFinite = true) (run : RunId)
    (keys : List String) (runRegistry : ConversionRegistry) :
    let report := (process run service store keys runRegistry).report
    let footprint := Footprint.encode report.processed.footprint
    (∀ (σ : Type) [Scalar σ] (write : Datum → σ), Rereads write (fun v => v.isFinite = true) →
      report.GivenBack (ProcessReport.decode? (report.encode.map write))
        (Footprint.decode? (footprint.map write))) ∧
    ((∀ x, Value.float x ∈ store.values → x.IsReread) →
      ∀ text ∈ [Json.pretty, Json.compact],
        report.GivenBack
          ((Json.read (text (Json.ofData report.encode))).bind ProcessReport.decode?)
          ((Json.read (text (Json.ofData footprint))).bind Footprint.decode?)) ∧
    ∀ (text : String) (other : ChunkStore),
      (Json.read text).bind ChunkStore.decode? = some other →
        ∀ v ∈ other.values, v.isFinite = true := by
  obtain ⟨hwellFormed, rfl⟩ := ServiceDefinition.compile_eq_ok_iff.1 hcompile
  intro report footprint
  refine ⟨fun σ _ write hwrite => ?_, fun hnumbers => ?_, fun text other hread => ?_⟩
  · exact givenBack_of_rereads hwrite hwellFormed hfinite run keys runRegistry
  · have hkept : ∀ v ∈ store.values, JsonScalar.GivesBack v :=
      JsonScalar.givesBack_of_floats hfinite hnumbers
    intro text htext
    rw [Json.read_written htext, Json.read_written htext]
    exact givenBack_of_rereads JsonScalar.rereads_ofDatum hwellFormed hkept
      run keys runRegistry
  · exact isFinite_of_read hread

/-- A group with a bandwidth of 9216.5, and one without a text for its name,
which the report tells. -/
theorem givenBack_of_process_bandwidth :
    let definition : ServiceDefinition :=
      { name := "epg"
        chunks := []
        rules := [{ (default : Rule) with
          chunk := "groups", destName := "name", commonKeys := ["bandwidth"] }]
        components := [⟨"routed", [⟨"bandwidth", .str anyValue, .equal⟩]⟩]
        catalog := ⟨"", [⟨"l3", FieldMap.ofList [("routed", true)]⟩]⟩ }
    let group (name bandwidth : Value) : Record :=
      FieldMap.ofList [("name", name), ("bandwidth", bandwidth)]
    let store : ChunkStore :=
      ⟨[⟨"leaf-1", FieldMap.ofList [("groups",
        [group (.str "web") (.float ⟨4666292438787162112⟩), group (.int 7) .null])]⟩]⟩
    let report := (process ⟨"r-1"⟩ definition.compiled store ["web"] .standard).report
    let footprint := Footprint.encode report.processed.footprint
    definition.compile .standard = .ok definition.compiled ∧
      (∀ v ∈ store.values, v.isFinite = true) ∧
      report.processed.types = [⟨"leaf-1", [⟨"web", .defined "l3"⟩]⟩] ∧
      report.diagnostics.map Diagnostic.key = [some "web"] ∧
      report.GivenBack (ProcessReport.decode? (report.encode.map fun d => d))
        (Footprint.decode? (footprint.map fun d => d)) ∧
      report.GivenBack
        ((Json.read (Json.ofData report.encode).pretty).bind ProcessReport.decode?)
        ((Json.read (Json.ofData footprint).pretty).bind Footprint.decode?) := by
  intro definition group store report footprint
  have named : (Text.trim definition.name).isEmpty = false := by
    show (Text.trim "epg").isEmpty = false
    decide
  have compiles : definition.compile .standard = .ok definition.compiled :=
    ServiceDefinition.compile_eq_ok_iff.2
      ⟨⟨named, rfl, by decide, by decide, by decide, by decide⟩, rfl⟩
  have finite : ∀ v ∈ store.values, v.isFinite = true := by decide
  have numbers : ∀ x, Value.float x ∈ store.values → x.IsReread := by
    have written : ∀ v ∈ store.values, (JsonScalar.ofValue v).value? = some v := by
      decide +kernel
    exact fun x hx => (JsonScalar.givesBack_float_iff (finite _ hx)).1 (written _ hx)
  obtain ⟨trees, texts, -⟩ :=
    givenBack_of_process compiles finite ⟨"r-1"⟩ ["web"] .standard
  exact ⟨compiles, finite, rfl, rfl, trees Datum (fun d => d) (rereads_datum _),
    texts numbers Json.pretty List.mem_cons_self⟩

end FabricFootprint
