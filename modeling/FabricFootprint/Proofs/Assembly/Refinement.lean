import FabricFootprint.Proofs.Assembly.Cells
import FabricFootprint.Proofs.Extraction.Issues

/-!
FabricFootprint.Proofs.Assembly.Refinement — a batch is its extractions, each run on its own.

* `AssemblyReport.under` — the part of a report that stands under a device name and a key.
* `under_assemble` — that part is the report of the batch cut down to this name and this key,
  so no other device and no other key has a share in it.
* `IsBatchOf` — the five facts that tie a report to the extractions of its cells.
* `assemble_refines_extract` — every report of a batch has them, and depends on nothing else.
-/

namespace FabricFootprint

/-! ## One device name and one key -/

/-- The part of a report that stands under a device name and a key. -/
def AssemblyReport.under (report : AssemblyReport) (device key : String) :
    AssemblyReport where
  footprint := (report.footprint.filter fun d => d.device == device).map fun d =>
    ⟨d.device, d.entries.filter fun entry => entry.key == key⟩
  failures := report.failures.filter fun f => f.device == device && f.key == key
  diagnostics :=
    report.diagnostics.filter fun d => d.device == some device && d.key == some key

section Locality

variable {key : String} {device : DeviceChunks} {rules : RuleSet}
  {registry : ConversionRegistry}

/-- What a report keeps of an issue names the device and the key. -/
theorem labels_of_reportedIssues {d : Diagnostic}
    (h : d ∈ (reportedIssues (extract key device rules registry)).map Diagnostic.ofIncident) :
    d.device = some device.name ∧ d.key = some key := by
  obtain ⟨issue, hissue, rfl⟩ := List.mem_map.1 h
  cases hx : extract key device rules registry with
  | error e => simp [hx, reportedIssues] at hissue
  | ok x =>
    rw [hx] at hissue
    obtain ⟨i, rule, _, _, his⟩ := (extract_issues hx).1 issue hissue
    exact ⟨his.device, his.key⟩

theorem filter_reportedData (keys : List String)
    (result : String → Except Incident Extraction) (key : String) :
    ((keys.filterMap fun k => reportedData? k (result k)).filter fun entry =>
      entry.key == key) =
      (keys.filter (· == key)).filterMap fun k => reportedData? k (result k) := by
  rw [List.filter_filterMap, List.filterMap_filter]
  congr 1
  funext k
  cases result k with
  | error e => simp [reportedData?]
  | ok x => by_cases h : k = key <;> simp [reportedData?, h]

theorem filter_reportedFailure (keys : List String)
    (result : String → Except Incident Extraction) (owner device key : String) :
    ((keys.filterMap fun k => reportedFailure? owner k (result k)).filter
        fun f => f.device == device && f.key == key) =
      if owner == device then
        (keys.filter (· == key)).filterMap fun k => reportedFailure? owner k (result k)
      else [] := by
  rw [List.filter_filterMap]
  by_cases hdevice : owner = device
  · rw [if_pos (by simpa using hdevice), List.filterMap_filter]
    congr 1
    funext k
    cases result k with
    | ok x => simp [reportedFailure?]
    | error e => by_cases h : k = key <;> simp [reportedFailure?, hdevice, h]
  · rw [if_neg (by simpa using hdevice), List.filterMap_eq_nil_iff]
    intro k _
    cases result k with
    | ok x => rfl
    | error e => simp [reportedFailure?, hdevice]

/-- Diagnostics are told apart by the labels of their issues. -/
theorem filter_diagnostics (keys : List String) (owner : DeviceChunks) (device key : String) :
    ((keys.flatMap fun k =>
        (reportedIssues (extract k owner rules registry)).map Diagnostic.ofIncident).filter
          fun d => d.device == some device && d.key == some key) =
      if owner.name == device then
        (keys.filter (· == key)).flatMap fun k =>
          (reportedIssues (extract k owner rules registry)).map Diagnostic.ofIncident
      else [] := by
  rw [List.filter_flatMap]
  by_cases hdevice : owner.name = device
  · rw [if_pos (by simpa using hdevice)]
    induction keys with
    | nil => rfl
    | cons k rest ih =>
      by_cases hk : k = key
      · rw [List.flatMap_cons, ih, List.filter_cons_of_pos (by simpa using hk),
          List.flatMap_cons, List.filter_eq_self.2]
        intro d hd
        obtain ⟨hname, hkey⟩ := labels_of_reportedIssues hd
        simp [hname, hkey, hdevice, hk]
      · rw [List.flatMap_cons, ih, List.filter_cons_of_neg (by simpa using hk),
          List.filter_eq_nil_iff.2, List.nil_append]
        intro d hd
        obtain ⟨-, hkey⟩ := labels_of_reportedIssues hd
        simp [hkey, hk]
  · rw [if_neg (by simpa using hdevice), List.flatMap_eq_nil_iff]
    intro k _
    rw [List.filter_eq_nil_iff]
    intro d hd
    obtain ⟨hname, -⟩ := labels_of_reportedIssues hd
    simp [hname, hdevice]

/-- Going through the devices of one name. -/
theorem flatMap_of_name {β : Type} (devices : List DeviceChunks) (name : String)
    (f : DeviceChunks → List β) :
    (devices.flatMap fun d => if d.name == name then f d else []) =
      (devices.filter fun d => d.name == name).flatMap f := by
  induction devices with
  | nil => rfl
  | cons d rest ih =>
    rw [List.flatMap_cons, ih]
    by_cases h : d.name = name <;> simp [h]

end Locality

/-- What stands under a device name and a key is the report of the batch of this name
and this key alone. -/
theorem under_assemble (store : ChunkStore) (keys : List String) (rules : RuleSet)
    (registry : ConversionRegistry) (device key : String) :
    (assemble store keys rules registry).report.under device key =
      (assemble ⟨store.devices.filter fun d => d.name == device⟩
        (keys.filter (· == key)) rules registry).report := by
  have hfootprint : ((assemble store keys rules registry).report.under device key).footprint =
      (assemble ⟨store.devices.filter fun d => d.name == device⟩
        (keys.filter (· == key)) rules registry).report.footprint := by
    rw [report_footprint, AssemblyReport.under, report_footprint, List.filter_map,
      List.map_map]
    refine List.map_congr_left fun d _ => ?_
    simp only [Function.comp_apply, filter_reportedData]
  have hfailures : ((assemble store keys rules registry).report.under device key).failures =
      (assemble ⟨store.devices.filter fun d => d.name == device⟩
        (keys.filter (· == key)) rules registry).report.failures := by
    rw [report_failures, AssemblyReport.under, report_failures, List.filter_flatMap]
    simp only [filter_reportedFailure]
    exact flatMap_of_name store.devices device _
  have hdiagnostics :
      ((assemble store keys rules registry).report.under device key).diagnostics =
        (assemble ⟨store.devices.filter fun d => d.name == device⟩
          (keys.filter (· == key)) rules registry).report.diagnostics := by
    rw [report_diagnostics, AssemblyReport.under, report_diagnostics, List.filter_flatMap]
    simp only [filter_diagnostics]
    exact flatMap_of_name store.devices device _
  exact AssemblyReport.ext hfootprint hfailures hdiagnostics

/-! ## Whole batches -/

/-- A report ties up with the extractions of a batch, each run on its own. -/
structure IsBatchOf (report : AssemblyReport) (store : ChunkStore) (keys : List String)
    (rules : RuleSet) (registry : ConversionRegistry) : Prop where
  /-- One entry per device, in store order; its list holds the successes, in key order. -/
  footprint : report.footprint = store.devices.map fun device =>
    ⟨device.name,
      keys.filterMap fun key => reportedData? key (extract key device rules registry)⟩
  /-- The failures, in device order and then in key order. -/
  failures : report.failures = store.devices.flatMap fun device => keys.filterMap fun key =>
    reportedFailure? device.name key (extract key device rules registry)
  /-- The issues of the successes, in device order, then in key order. -/
  diagnostics : report.diagnostics = store.devices.flatMap fun device =>
    keys.flatMap fun key =>
      (reportedIssues (extract key device rules registry)).map Diagnostic.ofIncident
  /-- The issues of one extraction are in rule order. -/
  ordered : ∀ device ∈ store.devices, ∀ key ∈ keys,
    (reportedIssues (extract key device rules registry)).Pairwise Incident.Before
  /-- The cells of the batch are split in two, in order, each cell being in one of the two,
  once. The cells of the one half are the entries of the footprint, at the position of their
  device; those of the other half are the failures. -/
  split : ∃ (successes : List (Cell × Extraction)) (errors : List (Cell × Incident)),
    (successes.map Prod.fst ++ errors.map Prod.fst).Perm (cells store keys) ∧
    (successes.map Prod.fst).Pairwise Cell.Before ∧
    (errors.map Prod.fst).Pairwise Cell.Before ∧
    (∀ s ∈ successes, extract s.1.key s.1.device rules registry = .ok s.2) ∧
    (∀ f ∈ errors, extract f.1.key f.1.device rules registry = .error f.2) ∧
    cellEntries report.footprint =
      successes.map (fun s => (s.1.devicePosition, ⟨s.1.key, s.2.data⟩)) ∧
    report.failures =
      errors.map (fun f => ⟨f.1.device.name, f.1.key, Diagnostic.ofIncident f.2⟩) ∧
    report.diagnostics = successes.flatMap (fun s => s.2.issues.map Diagnostic.ofIncident)

theorem isBatchOf_assemble (store : ChunkStore) (keys : List String) (rules : RuleSet)
    (registry : ConversionRegistry) :
    IsBatchOf (assemble store keys rules registry).report store keys rules registry where
  footprint := report_footprint store keys rules registry
  failures := report_failures store keys rules registry
  diagnostics := report_diagnostics store keys rules registry
  ordered := by
    intro device _ key _
    cases hx : extract key device rules registry with
    | ok x => exact (extract_issues hx).2
    | error e => exact List.Pairwise.nil
  split := by
    refine ⟨succeeded store keys rules registry, failed store keys rules registry, split_perm,
      ?_, ?_, fun s hs => result_of_mem_succeeded hs, fun f hf => result_of_mem_failed hf,
      cellEntries_report store keys rules registry, failures_report store keys rules registry,
      diagnostics_report store keys rules registry⟩
    · rw [map_fst_succeeded]
      exact cells_pairwise.filter _
    · rw [map_fst_failed]
      exact cells_pairwise.filter _

/-- A batch reports its extractions, each run on its own, and nothing else. Batches that agree
on the devices of one name and on the occurrences of one key report the same under them,
whatever other devices and keys they have, and in whatever order. -/
theorem assemble_refines_extract (store : ChunkStore) (keys : List String) (rules : RuleSet)
    (registry : ConversionRegistry) :
    IsBatchOf (assemble store keys rules registry).report store keys rules registry ∧
    ∀ (store' : ChunkStore) (keys' : List String) (device key : String),
      store'.devices.filter (fun d => d.name == device) =
        store.devices.filter (fun d => d.name == device) →
      keys'.filter (· == key) = keys.filter (· == key) →
      (assemble store' keys' rules registry).report.under device key =
        (assemble store keys rules registry).report.under device key := by
  refine ⟨isBatchOf_assemble store keys rules registry, ?_⟩
  intro store' keys' device key hdevices hkeys
  rw [under_assemble, under_assemble, hdevices, hkeys]

/-- A leaf that is joined by a spine, and a key that is joined by another one before it,
report what they report alone. -/
theorem assemble_refines_extract_joined :
    let domain : Record := FieldMap.ofList [("id", .str "100"), ("name", .str "web")]
    let leaf : DeviceChunks := ⟨"leaf-1", FieldMap.ofList [("domains", [domain])]⟩
    let spine : DeviceChunks := ⟨"spine-1", FieldMap.empty⟩
    let rules : RuleSet :=
      ⟨[{ (default : Rule) with
          chunk := "domains", destName := "id", commonKeys := ["name"] }]⟩
    (assemble ⟨[spine, leaf]⟩ ["200", "100"] rules .standard).report.under "leaf-1" "100" =
        (assemble ⟨[leaf]⟩ ["100"] rules .standard).report.under "leaf-1" "100" ∧
      (assemble ⟨[leaf]⟩ ["100"] rules .standard).report.footprint =
        [⟨"leaf-1", [⟨"100", FieldMap.ofList [("name", .str "web")]⟩]⟩] := by
  intro domain leaf spine rules
  obtain ⟨hbatch, hlocal⟩ := assemble_refines_extract ⟨[leaf]⟩ ["100"] rules .standard
  exact ⟨hlocal ⟨[spine, leaf]⟩ ["200", "100"] "leaf-1" "100" rfl rfl,
    hbatch.footprint.trans rfl⟩

end FabricFootprint
