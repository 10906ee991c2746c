import FabricFootprint.Proofs.Assembly.Report
import FabricFootprint.Proofs.EventLog
import FabricFootprint.Proofs.Extraction.Issues
import FabricFootprint.Proofs.Extraction.Run

/-!
FabricFootprint.Proofs.Process.Story — the log of a request tells what its report holds.

* `DeviceOutcome.announcements` — the issues and the failures of a device,
  as a log announces them.
* `DeviceOutcome.level_of_mem_finished` — what is logged while the keys of a device are worked
  on is at level DEBUG; the rest is logged when all devices are done, device by device.
* `filter_level_log` — the records of a request at the other levels.
* `TellsReport` — a log tells what a report holds: the visible records are the starts and ends
  of the operations, and between them the issues and failures of each device.
* `process_log` — the log of a request tells what its report holds.
-/

namespace FabricFootprint

/-- The records of a log at level INFO, WARN or ERROR. -/
def EventLog.visible (log : List LogRecord) : List LogRecord :=
  log.filter fun r => r.entry.level ≠ .debug

/-! ## One device -/

namespace DeviceOutcome

/-- The issues and then the failures of a device. -/
def announcements (outcome : DeviceOutcome) : List Announcement :=
  outcome.diagnostics.map .issue ++ outcome.reportedFailures.map .failure

/-! ### Levels -/

/-- With more keys, what is logged while they are worked on stays at level DEBUG. The
induction is on the keys; the outcome so far varies with it. -/
theorem level_of_mem_foldl_addKey {result : String → Except Incident Extraction}
    (keys : List String) (outcome : DeviceOutcome)
    (h : ∀ entry ∈ outcome.finished, entry.level = .debug) :
    ∀ entry ∈ (keys.foldl (fun o key => o.addKey key (result key)) outcome).finished,
      entry.level = .debug := by
  induction keys generalizing outcome with
  | nil => exact h
  | cons key rest ih =>
    refine ih (outcome.addKey key (result key)) ?_
    cases result key with
    | error e => exact h
    | ok x =>
      intro entry hentry
      cases List.mem_append.1 hentry with
      | inl hbefore => exact h entry hbefore
      | inr hnew =>
        rw [List.mem_singleton.1 hnew]
        rfl

theorem level_of_mem_finished (keys : List String) (rules : RuleSet)
    (registry : ConversionRegistry) (device : DeviceChunks) :
    ∀ entry ∈ (assemble keys rules registry device).finished, entry.level = .debug :=
  level_of_mem_foldl_addKey keys (none device.name) fun _ h => absurd h List.not_mem_nil

theorem level_of_mem_reportedEntries {outcome : DeviceOutcome} {entry : LogEntry}
    (h : entry ∈ outcome.reportedEntries) : entry.level ≠ .debug := by
  cases List.mem_append.1 h with
  | inl hissue =>
    obtain ⟨issue, -, rfl⟩ := List.mem_map.1 hissue
    exact nofun
  | inr hfailure =>
    obtain ⟨f, -, rfl⟩ := List.mem_map.1 hfailure
    exact nofun

theorem filter_warn_reportedEntries (outcome : DeviceOutcome) :
    outcome.reportedEntries.filter (fun entry => entry.level = .warn) =
      outcome.issues.map .dataIssue := by
  simp [reportedEntries, List.filter_map, Function.comp_def, LogEntry.level]

theorem filter_error_reportedEntries (outcome : DeviceOutcome) :
    outcome.reportedEntries.filter (fun entry => entry.level = .error) =
      outcome.failures.map fun f => .extractionFailed outcome.device f.1 f.2 := by
  simp [reportedEntries, List.filter_map, Function.comp_def, LogEntry.level]

/-! ### Labels -/

section

variable (keys : List String) (rules : RuleSet) (registry : ConversionRegistry)
  (device : DeviceChunks)

/-- The error of a failed key is labelled with the device and the key. -/
theorem labels_of_mem_failures {f : String × Incident}
    (h : f ∈ (assemble keys rules registry device).failures) :
    f.2.device = some (assemble keys rules registry device).device ∧ f.2.key = some f.1 := by
  obtain ⟨hdevice, -, -, hfailures⟩ := assemble_fields keys rules registry device
  rw [hfailures] at h
  obtain ⟨key, -, hfailed⟩ := List.mem_filterMap.1 h
  rw [hdevice]
  cases hresult : extract key device rules registry with
  | ok x =>
    rw [hresult] at hfailed
    exact nomatch hfailed
  | error e =>
    rw [hresult] at hfailed
    obtain ⟨i, source, target, -, rfl⟩ := extract_eq_error_iff.1 hresult
    cases hfailed
    exact ⟨rfl, rfl⟩

/-- The issues of a device are labelled with it. -/
theorem device_of_mem_diagnostics {d : Diagnostic}
    (h : d ∈ (assemble keys rules registry device).diagnostics) :
    d.device = some device.name := by
  obtain ⟨-, -, hissues, -⟩ := assemble_fields keys rules registry device
  obtain ⟨issue, hissue, rfl⟩ := List.mem_map.1 h
  rw [hissues] at hissue
  obtain ⟨key, -, hreported⟩ := List.mem_flatMap.1 hissue
  cases hresult : extract key device rules registry with
  | error e =>
    rw [hresult] at hreported
    exact absurd hreported List.not_mem_nil
  | ok x =>
    rw [hresult] at hreported
    obtain ⟨hlabelled, -⟩ := extract_issues hresult
    obtain ⟨i, rule, -, -, his⟩ := hlabelled issue hreported
    exact his.device

/-! ### Records -/

variable (run : RunId)

theorem map_failure?_failures :
    let outcome := assemble keys rules registry device
    (outcome.failures.map fun f =>
      (⟨some run, .extractionFailed outcome.device f.1 f.2⟩ : LogRecord).failure?) =
      outcome.reportedFailures.map some := by
  intro outcome
  rw [reportedFailures, List.map_map]
  refine List.map_congr_left ?_
  intro f hf
  obtain ⟨hdevice, hkey⟩ := labels_of_mem_failures keys rules registry device hf
  exact LogRecord.failure?_extractionFailed run hdevice hkey

/-- The entries about a device announce its issues and then its failures. -/
theorem map_announcement?_reportedEntries :
    let outcome := assemble keys rules registry device
    (outcome.reportedEntries.map fun entry => (⟨some run, entry⟩ : LogRecord).announcement?) =
      outcome.announcements.map some := by
  intro outcome
  rw [reportedEntries, announcements, diagnostics, reportedFailures]
  simp only [List.map_append, List.map_map]
  refine congrArg₂ (· ++ ·) ?issues ?failures
  case issues =>
    exact List.map_congr_left fun issue _ => LogRecord.announcement?_dataIssue run issue
  case failures =>
    refine List.map_congr_left ?_
    intro f hf
    obtain ⟨hdevice, hkey⟩ := labels_of_mem_failures keys rules registry device hf
    exact LogRecord.announcement?_extractionFailed run hdevice hkey

end

end DeviceOutcome

/-! ## Records of a request -/

section Request

variable (run : RunId) (service : CompiledService) (store : ChunkStore) (keys : List String)
  (registry : ConversionRegistry)

/-- What a request logs, but for what it logs while keys are worked on. -/
def notableEntries : List LogEntry :=
  let report := (process run service store keys registry).report
  [.processStarted service.name store.devices.length keys.length] ++
    ([.assemblyStarted store.devices.length keys.length service.rules.size] ++
      store.devices.flatMap (fun device =>
        (DeviceOutcome.assemble keys service.rules registry device).reportedEntries) ++
      [.assemblyFinished report.processed.footprint.length report.failures.length]) ++
    [.processFinished service.name report.failures.length report.diagnostics.length]

/-- At levels other than DEBUG, the log of a request has notable entries only. -/
theorem filter_level_log {P : LogLevel → Bool} (hdebug : P .debug = false) :
    (process run service store keys registry).log.filter (fun r => P r.entry.level) =
      ((notableEntries run service store keys registry).filter fun entry => P entry.level).map
        fun entry => ⟨some run, entry⟩ := by
  have hfinished : (store.devices.flatMap fun device =>
      (DeviceOutcome.assemble keys service.rules registry device).finished).filter
        (fun entry => P entry.level) = [] := by
    rw [List.filter_eq_nil_iff]
    intro entry hentry
    obtain ⟨device, -, hmem⟩ := List.mem_flatMap.1 hentry
    simp [DeviceOutcome.level_of_mem_finished keys service.rules registry device entry hmem,
      hdebug]
  simp only [notableEntries, process, assemble, List.flatMap_map, List.filter_map,
    Function.comp_def, List.filter_append, hfinished, List.append_nil]

/-- The notable entries are the visible ones. -/
theorem visible_log :
    EventLog.visible (process run service store keys registry).log =
      (notableEntries run service store keys registry).map fun entry =>
        ⟨some run, entry⟩ := by
  have hnotable :
      ∀ entry ∈ notableEntries run service store keys registry, entry.level ≠ .debug := by
    intro entry hentry
    simp only [notableEntries, List.mem_append, List.mem_singleton,
      List.mem_flatMap] at hentry
    obtain (rfl | (rfl | ⟨device, -, hreported⟩) | rfl) | rfl := hentry
    · exact nofun
    · exact nofun
    · exact DeviceOutcome.level_of_mem_reportedEntries hreported
    · exact nofun
    · exact nofun
  rw [EventLog.visible,
    filter_level_log run service store keys registry (P := fun level => level ≠ .debug)
      (by decide)]
  refine congrArg (List.map _) (List.filter_eq_self.2 ?_)
  intro entry hentry
  simpa using hnotable entry hentry

/-- At levels WARN and ERROR, the log of a request has the entries about its devices only. -/
theorem filter_level_log_of_info {P : LogLevel → Bool} (hdebug : P .debug = false)
    (hinfo : P .info = false) :
    (process run service store keys registry).log.filter (fun r => P r.entry.level) =
      store.devices.flatMap fun device =>
        ((DeviceOutcome.assemble keys service.rules registry device).reportedEntries.filter
          fun entry => P entry.level).map fun entry => ⟨some run, entry⟩ := by
  rw [filter_level_log run service store keys registry hdebug, notableEntries]
  simp only [List.filter_append, List.filter_flatMap, List.filter_singleton,
    LogEntry.level, hinfo, cond_false, List.nil_append, List.append_nil, List.map_flatMap]

/-! ## The story of a request -/

/-- The story of a report that is made of the outcomes of some devices: what has happened on
each device, between the starts and the ends of the operations. -/
def ProcessReport.story (report : ProcessReport) (outcomes : List DeviceOutcome) :
    List Announcement :=
  [.started "process", .started "assemble"] ++
    outcomes.flatMap DeviceOutcome.announcements ++
    [.ended "assemble" (some report.processed.footprint.length)
      (some report.failures.length) none,
      .ended "process" none (some report.failures.length) (some report.diagnostics.length)]

/-- A log tells what a report holds that is made of the outcomes of some devices. All is read
from the levels and the texts of the records. -/
structure TellsReport (log : List LogRecord) (report : ProcessReport)
    (outcomes : List DeviceOutcome) : Prop where
  /-- The visible records, in order: every one is read, and there are no others. -/
  story :
    (EventLog.visible log).map LogRecord.announcement? = (report.story outcomes).map some
  warnings : (EventLog.ofLevel .warn log).map (LogRecord.diagnostic? LogEntry.issueLead) =
    report.diagnostics.map some
  errors : (EventLog.ofLevel .error log).map LogRecord.failure? = report.failures.map some
  run : ∀ r ∈ log, r.field? "run_id" = some report.run.text
  /-- The report has the diagnostics and the failures of the outcomes, in the same order. -/
  diagnostics : report.diagnostics = outcomes.flatMap DeviceOutcome.diagnostics
  failures : report.failures = outcomes.flatMap DeviceOutcome.reportedFailures
  /-- What is told about a device is labelled with it. -/
  labels : ∀ o ∈ outcomes, (∀ d ∈ o.diagnostics, d.device = some o.device) ∧
    ∀ f ∈ o.reportedFailures, f.device = o.device

/-- The log tells the same story as the report. Whatever the service, the store, the keys
and the registry, the log of a request tells what its report holds, device by device in the
order of the store. -/
theorem process_log :
    TellsReport (process run service store keys registry).log
      (process run service store keys registry).report
      (store.devices.map (DeviceOutcome.assemble keys service.rules registry)) := by
  have hdiagnostics : (process run service store keys registry).report.diagnostics =
      store.devices.flatMap fun device =>
        (DeviceOutcome.assemble keys service.rules registry device).diagnostics :=
    List.flatMap_map ..
  have hfailures : (process run service store keys registry).report.failures =
      store.devices.flatMap fun device =>
        (DeviceOutcome.assemble keys service.rules registry device).reportedFailures :=
    List.flatMap_map ..
  refine ⟨?story, ?warnings, ?errors, ?run, rfl, rfl, ?labels⟩
  case story =>
    have hdevice (device : DeviceChunks) :=
      DeviceOutcome.map_announcement?_reportedEntries keys service.rules registry device run
    rw [visible_log, List.map_map, notableEntries, ProcessReport.story, List.flatMap_map]
    simp only [List.map_append, List.map_cons, List.map_nil, Function.comp_def,
      List.map_flatMap, LogRecord.announcement?_processStarted,
      LogRecord.announcement?_assemblyStarted, LogRecord.announcement?_assemblyFinished,
      LogRecord.announcement?_processFinished, hdevice, List.cons_append, List.nil_append,
      List.append_assoc]
  case warnings =>
    rw [EventLog.ofLevel, filter_level_log_of_info run service store keys registry
      (P := fun level => level = .warn) (by decide) (by decide), hdiagnostics]
    simp only [DeviceOutcome.filter_warn_reportedEntries, List.map_flatMap, List.map_map,
      Function.comp_def, LogRecord.diagnostic?_dataIssue, DeviceOutcome.diagnostics]
  case errors =>
    have hdevice (device : DeviceChunks) :=
      DeviceOutcome.map_failure?_failures keys service.rules registry device run
    rw [EventLog.ofLevel, filter_level_log_of_info run service store keys registry
      (P := fun level => level = .error) (by decide) (by decide), hfailures]
    simp only [DeviceOutcome.filter_error_reportedEntries, List.map_flatMap, List.map_map,
      Function.comp_def, hdevice]
  case run =>
    intro r hr
    obtain ⟨entry, -, rfl⟩ := List.mem_map.1 hr
    exact LogRecord.field?_run run entry
  case labels =>
    intro o ho
    obtain ⟨device, -, rfl⟩ := List.mem_map.1 ho
    constructor
    · intro d hd
      obtain ⟨hname, -⟩ := DeviceOutcome.assemble_fields keys service.rules registry device
      rw [hname]
      exact DeviceOutcome.device_of_mem_diagnostics keys service.rules registry device hd
    · intro f hf
      obtain ⟨failed, -, rfl⟩ := List.mem_map.1 hf
      rfl

end Request

/-- Two leaves: on the first one the rules pass over a record with a number for an identifier,
on the second one they need a conversion that nobody has registered. -/
theorem process_log_leaves :
    let domain : Rule :=
      { (default : Rule) with chunk := "domains", destName := "id", commonKeys := ["vlan"] }
    let group : Rule :=
      { (default : Rule) with
        chunk := "groups", sourceName := "vlan", sourceType := some .string
        destName := "vlan", destType := some .integer, linkage := .indirect }
    let service : CompiledService :=
      { (default : CompiledService) with rules := ⟨[domain, group]⟩ }
    let leaf (name : String) (id : Value) : DeviceChunks :=
      ⟨name,
        FieldMap.ofList [("domains", [FieldMap.ofList [("id", id), ("vlan", .str "7")]])]⟩
    let store : ChunkStore := ⟨[leaf "leaf-1" (.int 100), leaf "leaf-2" (.str "100")]⟩
    let p := process ⟨"run-1"⟩ service store ["100"] .empty
    (EventLog.visible p.log).map LogRecord.announcement? =
        [some (.started "process"), some (.started "assemble"),
          some (.issue ⟨"ERR_TYPE_MISMATCH",
            "Field id expected string, found integer (1 records skipped)",
            some "leaf-1", some "100", some 0⟩),
          some (.failure ⟨"leaf-2", "100", "ERR_UNREGISTERED_CONVERSION",
            "No conversion registered from string to integer", some "leaf-2",
            some "100", some 1⟩),
          some (.ended "assemble" (some 2) (some 1) none),
          some (.ended "process" none (some 1) (some 1))] ∧
      ∀ r ∈ p.log, r.field? "run_id" = some "run-1" := by
  intro domain group service leaf store p
  have hlog := process_log ⟨"run-1"⟩ service store ["100"] .empty
  refine ⟨hlog.story.trans ?_, hlog.run⟩
  simp only [store, leaf, service, domain, group]
  rfl

end FabricFootprint
