import FabricFootprint.Process

/-!
FabricFootprint.Proofs.Assembly.Report — the report of a batch, read off its extractions.

* `reportedData?`, `reportedFailure?`, `reportedIssues` — what the report holds about one key
  of one device, as a function of what extracting the key gave and of nothing else.
* `Completes` — the extraction of a key succeeds; the entry of a device has the keys that
  complete, in key order (`keys_entry`).
* `DeviceOutcome.foldl_addKey` — the running outcome of a device is three
  filters over its keys.
* `report_footprint`, `report_failures`, `report_diagnostics` — each part of the report goes
  through the devices in store order, and for each device through the keys in list order.
-/

namespace FabricFootprint

/-! ## One key of one device -/

/-- The entry of a key, when its extraction succeeded. -/
def reportedData? (key : String) : Except Incident Extraction → Option DataEntry
  | .ok x => some ⟨key, x.data⟩
  | .error _ => none

/-- The failure of a key, when its extraction failed. -/
def reportedFailure? (device key : String) : Except Incident Extraction → Option DeviceFailure
  | .ok _ => none
  | .error e => some ⟨device, key, Diagnostic.ofIncident e⟩

/-- The issues of a successful extraction; those of a failed one are not reported. -/
def reportedIssues : Except Incident Extraction → List Incident
  | .ok x => x.issues
  | .error _ => []

/-- An extraction is for the key it was asked for. -/
theorem key_of_extract {key : String} {device : DeviceChunks} {rules : RuleSet}
    {registry : ConversionRegistry} {x : Extraction}
    (h : extract key device rules registry = .ok x) :
    x.key = key := by
  unfold extract at h
  split at h
  · exact nomatch h
  · cases h
    rfl

/-- The extraction of a key on a device succeeds. -/
def Completes (rules : RuleSet) (registry : ConversionRegistry) (device : DeviceChunks)
    (key : String) : Bool :=
  (extract key device rules registry).toBool

/-- The entry of a device has the keys that complete, in the order of the key list. -/
theorem keys_entry {rules : RuleSet} {registry : ConversionRegistry} {device : DeviceChunks}
    (keys : List String) :
    (keys.filterMap fun key => reportedData? key (extract key device rules registry)).map
      DataEntry.key = keys.filter (Completes rules registry device) := by
  induction keys with
  | nil => rfl
  | cons key rest ih =>
    unfold Completes at ih ⊢
    cases hx : extract key device rules registry with
    | ok x =>
      rw [List.filterMap_cons_some (by rw [hx]; rfl), List.map_cons, ih,
        List.filter_cons_of_pos (by rw [hx]; rfl)]
    | error e =>
      rw [List.filterMap_cons_none (by rw [hx]; rfl), ih,
        List.filter_cons_of_neg (by rw [hx]; exact Bool.false_ne_true)]

/-! ## One device -/

namespace DeviceOutcome

/-- The failure of a key as a device outcome keeps it. -/
def failed? (key : String) : Except Incident Extraction → Option (String × Incident)
  | .ok _ => Option.none
  | .error e => some (key, e)

/-- The outcome of a device after more keys. The induction is on the keys; the outcome so
far varies with it. -/
theorem foldl_addKey {result : String → Except Incident Extraction}
    (hkey : ∀ key x, result key = .ok x → x.key = key) (keys : List String)
    (outcome : DeviceOutcome) :
    let final := keys.foldl (fun o key => o.addKey key (result key)) outcome
    final.device = outcome.device ∧
      final.entries =
        outcome.entries ++ keys.filterMap (fun key => reportedData? key (result key)) ∧
      final.issues = outcome.issues ++ keys.flatMap (fun key => reportedIssues (result key)) ∧
      final.failures =
        outcome.failures ++ keys.filterMap (fun key => failed? key (result key)) := by
  induction keys generalizing outcome with
  | nil => simp
  | cons key rest ih =>
    obtain ⟨hdevice, hentries, hissues, hfailures⟩ := ih (outcome.addKey key (result key))
    simp only [List.foldl_cons, List.filterMap_cons, List.flatMap_cons]
    rw [hdevice, hentries, hissues, hfailures]
    cases hr : result key with
    | ok x => simp [addKey, reportedData?, reportedIssues, failed?, hkey key x hr]
    | error e => simp [addKey, reportedData?, reportedIssues, failed?]

section Assembled

variable (keys : List String) (rules : RuleSet) (registry : ConversionRegistry)
  (device : DeviceChunks)

theorem assemble_fields :
    let outcome := assemble keys rules registry device
    outcome.device = device.name ∧
      outcome.entries =
        keys.filterMap (fun key => reportedData? key (extract key device rules registry)) ∧
      outcome.issues =
        keys.flatMap (fun key => reportedIssues (extract key device rules registry)) ∧
      outcome.failures =
        keys.filterMap (fun key => failed? key (extract key device rules registry)) :=
  foldl_addKey (fun _ _ h => key_of_extract h) keys (none device.name)

theorem footprint_assemble :
    (assemble keys rules registry device).footprint =
      ⟨device.name,
        keys.filterMap fun key => reportedData? key (extract key device rules registry)⟩ := by
  obtain ⟨hdevice, hentries, -, -⟩ := assemble_fields keys rules registry device
  rw [footprint, hdevice, hentries]

theorem reportedFailures_assemble :
    (assemble keys rules registry device).reportedFailures =
      keys.filterMap fun key =>
        reportedFailure? device.name key (extract key device rules registry) := by
  obtain ⟨hdevice, -, -, hfailures⟩ := assemble_fields keys rules registry device
  rw [reportedFailures, hdevice, hfailures, List.map_filterMap]
  congr 1
  funext key
  cases extract key device rules registry <;> rfl

theorem diagnostics_assemble :
    (assemble keys rules registry device).diagnostics =
      keys.flatMap fun key =>
        (reportedIssues (extract key device rules registry)).map Diagnostic.ofIncident := by
  obtain ⟨-, -, hissues, -⟩ := assemble_fields keys rules registry device
  rw [diagnostics, hissues, List.map_flatMap]

end Assembled

end DeviceOutcome

/-! ## All devices -/

section Report

variable (store : ChunkStore) (keys : List String) (rules : RuleSet)
  (registry : ConversionRegistry)

theorem report_footprint :
    (assemble store keys rules registry).report.footprint =
      store.devices.map fun device =>
        ⟨device.name,
          keys.filterMap fun key =>
            reportedData? key (extract key device rules registry)⟩ := by
  simp only [assemble, AssemblyReport.ofOutcomes, List.map_map]
  exact List.map_congr_left fun device _ =>
    DeviceOutcome.footprint_assemble keys rules registry device

theorem report_failures :
    (assemble store keys rules registry).report.failures =
      store.devices.flatMap fun device =>
        keys.filterMap fun key =>
          reportedFailure? device.name key (extract key device rules registry) := by
  simp only [assemble, AssemblyReport.ofOutcomes, List.flatMap_map,
    DeviceOutcome.reportedFailures_assemble]

theorem report_diagnostics :
    (assemble store keys rules registry).report.diagnostics =
      store.devices.flatMap fun device =>
        keys.flatMap fun key =>
          (reportedIssues (extract key device rules registry)).map Diagnostic.ofIncident := by
  simp only [assemble, AssemblyReport.ofOutcomes, List.flatMap_map,
    DeviceOutcome.diagnostics_assemble]

end Report

end FabricFootprint
