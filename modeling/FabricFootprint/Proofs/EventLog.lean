import FabricFootprint.EventLog
import FabricFootprint.Footprint
import FabricFootprint.Proofs.Json.Numeral
import Mathlib.Data.List.Basic

/-!
FabricFootprint.Proofs.EventLog — reading a log back from its named texts.

* `LogRecord.field?` — the text under a name. No name stands for two texts
  (`nodup_names_fields`).
* `LogRecord.diagnostic?`, `LogRecord.failure?` — the issue, or the failure of a
  key, that a record spells.
* `Announcement`, `LogRecord.announcement?` — what a record says, by its level and its
  texts alone: numbers are read from their digits, and the message of an issue from behind
  its fixed first words.
* `LogRecord.diagnostic?_dataIssue`, `LogRecord.failure?_extractionFailed` — issues and
  failures are read back in the form that reports keep.
-/

namespace FabricFootprint

/-! ## Texts -/

/-- What a text goes on with after some first words. -/
def Text.after? (lead text : String) : Option String :=
  (text.toList.dropPrefix? lead.toList).map String.ofList

@[simp] theorem Text.after?_append (lead text : String) :
    after? lead (lead ++ text) = some text := by
  rw [after?, String.toList_append, List.dropPrefix?_append_of_beq text.toList BEq.rfl]
  simp

@[simp] theorem Text.after?_empty (text : String) : after? "" text = some text := by
  simp [after?]

/-- The number that a text of one or more digits denotes. -/
def Decimal.count? (text : String) : Option Nat :=
  if !text.toList.isEmpty && text.toList.all Char.isDigit then
    some (digitsValue text.toList)
  else none

@[simp] theorem Decimal.count?_countText (n : Nat) : count? (countText n) = some n := by
  have hdigits : (Nat.toDigits 10 n).all Char.isDigit = true :=
    List.all_eq_true.2 isDigit_of_mem_toDigits
  rw [count?, countText, String.toList_ofList, hdigits, digitsValue_toDigits]
  simp

/-! ## Fields -/

namespace LogEntry

@[simp] theorem optionalField_none (name : String) : optionalField name none = [] := rfl

@[simp] theorem optionalField_some (name text : String) :
    optionalField name (some text) = [(name, text)] := rfl

end LogEntry

namespace LogRecord

/-- The text under a name. -/
def field? (r : LogRecord) (name : String) : Option String := r.fields.lookup name

/-- No name stands for two texts, so it makes no difference which of two would count. -/
theorem nodup_names_fields (r : LogRecord) : (r.fields.map Prod.fst).Nodup := by
  obtain ⟨run, entry⟩ := r
  cases entry with
  | dataIssue issue =>
    cases run <;> cases hdevice : issue.device <;> cases hkey : issue.key <;>
      cases hrule : issue.rule <;>
      simp [fields, LogEntry.facts, LogEntry.operation?, hdevice, hkey, hrule]
  | extractionFailed device key e =>
    cases run <;> cases hrule : e.rule <;>
      simp [fields, LogEntry.facts, LogEntry.operation?, hrule]
  | _ => cases run <;> simp [fields, LogEntry.facts, LogEntry.operation?]

/-- Every record of a run carries the identity of the run. -/
theorem field?_run (run : RunId) (entry : LogEntry) :
    (⟨some run, entry⟩ : LogRecord).field? "run_id" = some run.text := rfl

/-- The number under a name. -/
def number? (r : LogRecord) (name : String) : Option Nat :=
  (r.field? name).bind Decimal.count?

/-- The index of a rule, which may be left out but not be misspelled. -/
def rule? (r : LogRecord) : Option (Option Nat) :=
  match r.field? "rule_index" with
  | none => some none
  | some text => (Decimal.count? text).map some

/-- The issue that a record spells; its message stands behind some first words. -/
def diagnostic? (lead : String) (r : LogRecord) : Option Diagnostic := do
  let code ← r.field? "err_code"
  let message ← (r.field? "message").bind (Text.after? lead)
  let rule ← r.rule?
  return ⟨code, message, r.field? "device", r.field? "key", rule⟩

/-- The failure of a key that a record spells. -/
def failure? (r : LogRecord) : Option DeviceFailure := do
  let device ← r.field? "device"
  let key ← r.field? "key"
  let error ← r.diagnostic? ""
  return ⟨device, key, error⟩

section

variable (run : RunId)

/-- Whatever labels an issue has, it is read back from its record. -/
theorem diagnostic?_dataIssue (issue : Incident) :
    (⟨some run, .dataIssue issue⟩ : LogRecord).diagnostic? LogEntry.issueLead =
      some (Diagnostic.ofIncident issue) := by
  cases hdevice : issue.device <;> cases hkey : issue.key <;> cases hrule : issue.rule <;>
    simp [diagnostic?, rule?, field?, fields, LogEntry.facts, LogEntry.operation?,
      List.lookup_cons, Diagnostic.ofIncident, hdevice, hkey, hrule]

/-- The failure of a key is read back when its error is labelled with the
device and the key. -/
theorem failure?_extractionFailed {device key : String} {e : Incident}
    (hdevice : e.device = some device) (hkey : e.key = some key) :
    (⟨some run, .extractionFailed device key e⟩ : LogRecord).failure? =
      some ⟨device, key, Diagnostic.ofIncident e⟩ := by
  cases hrule : e.rule <;>
    simp [failure?, diagnostic?, rule?, field?, fields, LogEntry.facts, LogEntry.operation?,
      List.lookup_cons, Diagnostic.ofIncident, hdevice, hkey, hrule]

end

end LogRecord

/-! ## Announcements -/

/-- What a log says, the details of extractions left aside. -/
inductive Announcement where
  | started (operation : String)
  | issue (d : Diagnostic)
  | failure (f : DeviceFailure)
  /-- An operation has ended, with the counts that it gives. -/
  | ended (operation : String) (devices failures diagnostics : Option Nat)
  deriving DecidableEq

namespace LogRecord

/-- The start or the end of an operation that a record spells. -/
def operation? (r : LogRecord) : Option Announcement := do
  let operation ← r.field? "op"
  let event ← r.field? "event"
  if event = EventLog.startEvent then return .started operation
  else if event = EventLog.endEvent then
    return .ended operation (r.number? "device_count") (r.number? "failure_count")
      (r.number? "diagnostic_count")
  else failure

/-- What a record says, by its level and its texts. A failure has to be the failed end
of the work on a key. -/
def announcement? (r : LogRecord) : Option Announcement :=
  match r.entry.level with
  | .debug => none
  | .info => r.operation?
  | .warn => (r.diagnostic? LogEntry.issueLead).map .issue
  | .error =>
    if r.field? "op" = some "assemble_key" ∧
        r.field? "event" = some EventLog.endErrorEvent then
      r.failure?.map .failure
    else none

section

variable (run : RunId)

theorem announcement?_processStarted (service : String) (devices keys : Nat) :
    (⟨some run, .processStarted service devices keys⟩ : LogRecord).announcement? =
      some (.started "process") := by
  simp [announcement?, operation?, field?, fields, LogEntry.level, LogEntry.operation?,
    LogEntry.facts, List.lookup_cons]

theorem announcement?_assemblyStarted (devices keys rules : Nat) :
    (⟨some run, .assemblyStarted devices keys rules⟩ : LogRecord).announcement? =
      some (.started "assemble") := by
  simp [announcement?, operation?, field?, fields, LogEntry.level, LogEntry.operation?,
    LogEntry.facts, List.lookup_cons]

theorem announcement?_dataIssue (issue : Incident) :
    (⟨some run, .dataIssue issue⟩ : LogRecord).announcement? =
      some (.issue (Diagnostic.ofIncident issue)) := by
  simp [announcement?, LogEntry.level, diagnostic?_dataIssue]

theorem announcement?_extractionFailed {device key : String} {e : Incident}
    (hdevice : e.device = some device) (hkey : e.key = some key) :
    (⟨some run, .extractionFailed device key e⟩ : LogRecord).announcement? =
      some (.failure ⟨device, key, Diagnostic.ofIncident e⟩) := by
  simp [announcement?, LogEntry.level, failure?_extractionFailed run hdevice hkey,
    field?, fields, LogEntry.operation?, List.lookup_cons]

theorem announcement?_assemblyFinished (devices failures : Nat) :
    (⟨some run, .assemblyFinished devices failures⟩ : LogRecord).announcement? =
      some (.ended "assemble" (some devices) (some failures) none) := by
  simp [announcement?, operation?, number?, field?, fields, LogEntry.level,
    LogEntry.operation?, LogEntry.facts, List.lookup_cons, EventLog.startEvent,
    EventLog.endEvent]

theorem announcement?_processFinished (service : String) (failures diagnostics : Nat) :
    (⟨some run, .processFinished service failures diagnostics⟩ : LogRecord).announcement? =
      some (.ended "process" none (some failures) (some diagnostics)) := by
  simp [announcement?, operation?, number?, field?, fields, LogEntry.level,
    LogEntry.operation?, LogEntry.facts, List.lookup_cons, EventLog.startEvent,
    EventLog.endEvent]

end

end LogRecord

end FabricFootprint
