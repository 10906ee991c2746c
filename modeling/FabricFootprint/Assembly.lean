import FabricFootprint.EventLog
import FabricFootprint.Extraction
import FabricFootprint.Footprint

/-!
FabricFootprint.Assembly — the footprint of every device over a list of keys.

Devices are independent of each other, and so are keys. A key whose extraction fails is listed
among the failures and left out of its device's entry; everything else completes. Issues and
failures are reported in device order, and for each device in key order.

* `DeviceOutcome.assemble` — all keys of one device.
* `assemble` — all devices; the report and the log are both read off the list of outcomes.
-/

namespace FabricFootprint

/-! ## One device -/

/-- What the keys of one device gave. -/
structure DeviceOutcome where
  device : String
  entries : List DataEntry
  issues : List Incident
  failures : List (String × Incident)
  finished : List LogEntry

namespace DeviceOutcome

def none (device : String) : DeviceOutcome := ⟨device, [], [], [], []⟩

/-- The outcome with the result of one more key. -/
def addKey (outcome : DeviceOutcome) (key : String) :
    Except Incident Extraction → DeviceOutcome
  | .ok e =>
    { outcome with
      entries := outcome.entries ++ [⟨e.key, e.data⟩]
      issues := outcome.issues ++ e.issues
      finished := outcome.finished ++
        [.extractionFinished outcome.device key e.data.size e.issues.length] }
  | .error error => { outcome with failures := outcome.failures ++ [(key, error)] }

def assemble (keys : List String) (rules : RuleSet) (registry : ConversionRegistry)
    (device : DeviceChunks) : DeviceOutcome :=
  keys.foldl (fun outcome key => outcome.addKey key (extract key device rules registry))
    (none device.name)

def footprint (outcome : DeviceOutcome) : DeviceFootprint := ⟨outcome.device, outcome.entries⟩

def reportedFailures (outcome : DeviceOutcome) : List DeviceFailure :=
  outcome.failures.map fun f => ⟨outcome.device, f.1, Diagnostic.ofIncident f.2⟩

def diagnostics (outcome : DeviceOutcome) : List Diagnostic :=
  outcome.issues.map Diagnostic.ofIncident

/-- What the log is told about a device once all devices are done: its
issues, then its failures. -/
def reportedEntries (outcome : DeviceOutcome) : List LogEntry :=
  outcome.issues.map LogEntry.dataIssue ++
    outcome.failures.map fun f => .extractionFailed outcome.device f.1 f.2

end DeviceOutcome

/-! ## All devices -/

def AssemblyReport.ofOutcomes (outcomes : List DeviceOutcome) : AssemblyReport where
  footprint := outcomes.map DeviceOutcome.footprint
  failures := outcomes.flatMap DeviceOutcome.reportedFailures
  diagnostics := outcomes.flatMap DeviceOutcome.diagnostics

/-- A report together with the log of making it. -/
structure Assembly where
  report : AssemblyReport
  log : List LogEntry

def assemble (store : ChunkStore) (keys : List String) (rules : RuleSet)
    (registry : ConversionRegistry) : Assembly :=
  let outcomes := store.devices.map (DeviceOutcome.assemble keys rules registry)
  let report := AssemblyReport.ofOutcomes outcomes
  { report := report
    log :=
      [.assemblyStarted store.devices.length keys.length rules.size] ++
        outcomes.flatMap DeviceOutcome.finished ++
        outcomes.flatMap DeviceOutcome.reportedEntries ++
        [.assemblyFinished report.footprint.length report.failures.length] }

end FabricFootprint
