import FabricFootprint.Incident

/-!
FabricFootprint.EventLog — what a run tells its log.

* `LogEntry` — the facts of one event.
* `LogRecord` — an entry within a run; every entry of a run carries the run's identity.
* `LogRecord.fields` — the event as named texts, those of the enclosing run included.
* `LogEntry.level`, `LogEntry.operation?` — its level and the step of an operation it marks.
-/

namespace FabricFootprint

/-- The identity of one run. -/
structure RunId where
  text : String
  deriving DecidableEq, Inhabited

namespace RunId

def byteDigits (b : UInt8) : List Char :=
  [Nat.digitChar (b.toNat / 16), Nat.digitChar (b.toNat % 16)]

/-- The identity of sixteen bytes: groups of 4, 2, 2, 2 and 6 bytes, the third starting with
the digit 7 and the fourth with one of 8, 9, a and b. -/
def ofBytes (bytes : List UInt8) : RunId :=
  let byte (i : Nat) : UInt8 := bytes.getD i 0
  let digits (i : Nat) : List Char :=
    byteDigits (if i = 6 then byte i % 16 + 112
      else if i = 8 then byte i % 64 + 128
      else byte i)
  let group (is : List Nat) : List Char := is.flatMap digits
  ⟨String.ofList (List.intercalate ['-']
    [group [0, 1, 2, 3], group [4, 5], group [6, 7], group [8, 9],
      group [10, 11, 12, 13, 14, 15]])⟩

end RunId

/-! ## Vocabulary -/

namespace EventLog

/-- The names of the event fields, in the order of their documentation. -/
def fieldNames : List String :=
  ["component", "op", "event", "duration_ms", "run_id", "device", "key", "rule_index",
    "service", "device_count", "key_count", "rule_count", "err_kind", "err_code"]

def startEvent : String := "start"

def endEvent : String := "end"

def endErrorEvent : String := "end_error"

def assemblyComponent : String := "netprint_core::footprint"

def processComponent : String := "netprint_core::pipeline"

end EventLog

inductive LogLevel where
  | debug
  | info
  | warn
  | error
  deriving DecidableEq, Inhabited

def LogLevel.name : LogLevel → String
  | .debug => "DEBUG"
  | .info => "INFO"
  | .warn => "WARN"
  | .error => "ERROR"

inductive LogProfile where
  | development
  | production
  | quiet
  deriving DecidableEq

def LogProfile.directive : LogProfile → String
  | .development => "netprint_core=debug,netprint_cli=debug"
  | .production => "netprint_core=info,netprint_cli=info"
  | .quiet => "off"

/-! ## Entries -/

inductive LogEntry where
  | processStarted (service : String) (devices keys : Nat)
  | assemblyStarted (devices keys rules : Nat)
  | extractionFinished (device key : String) (fields issues : Nat)
  | dataIssue (issue : Incident)
  | extractionFailed (device key : String) (error : Incident)
  | assemblyFinished (devices failures : Nat)
  | processFinished (service : String) (failures diagnostics : Nat)

/-- A step of an operation: where it happens, its name and which step it is. -/
structure OperationStep where
  component : String
  operation : String
  event : String
  deriving DecidableEq

namespace LogEntry

open Decimal (countText)

def level : LogEntry → LogLevel
  | .extractionFinished .. => .debug
  | .dataIssue _ => .warn
  | .extractionFailed .. => .error
  | _ => .info

/-- The step of an operation that an entry marks, if it marks one. -/
def operation? : LogEntry → Option OperationStep
  | .processStarted .. => some ⟨EventLog.processComponent, "process", EventLog.startEvent⟩
  | .assemblyStarted .. => some ⟨EventLog.assemblyComponent, "assemble", EventLog.startEvent⟩
  | .extractionFailed .. =>
    some ⟨EventLog.assemblyComponent, "assemble_key", EventLog.endErrorEvent⟩
  | .assemblyFinished .. => some ⟨EventLog.assemblyComponent, "assemble", EventLog.endEvent⟩
  | .processFinished .. => some ⟨EventLog.processComponent, "process", EventLog.endEvent⟩
  | .extractionFinished .. | .dataIssue _ => none

/-- Whether an entry carries a duration: the ends of operations do. -/
def isTimed (entry : LogEntry) : Bool :=
  entry.operation?.any fun step => step.event != EventLog.startEvent

/-- The start of the message of a data-quality issue. -/
def issueLead : String := "data-quality issue: "

/-- A field that is there only when it has a value. -/
def optionalField (name : String) : Option String → List (String × String)
  | none => []
  | some text => [(name, text)]

/-- The facts of an entry as named texts. -/
def facts : LogEntry → List (String × String)
  | .processStarted service devices keys =>
    [("service", service), ("device_count", countText devices), ("key_count", countText keys)]
  | .assemblyStarted devices keys rules =>
    [("device_count", countText devices), ("key_count", countText keys),
      ("rule_count", countText rules)]
  | .extractionFinished device key fields issues =>
    [("device", device), ("key", key), ("fields", countText fields),
      ("issues", countText issues), ("message", "extraction finished")]
  | .dataIssue issue =>
    optionalField "device" issue.device ++ optionalField "key" issue.key ++
      optionalField "rule_index" (issue.rule.map countText) ++
      [("err_code", issue.code), ("message", issueLead ++ issue.message)]
  | .extractionFailed device key error =>
    [("err_kind", error.kind.label), ("err_code", error.code), ("message", error.message),
      ("device", device), ("key", key)] ++
      optionalField "rule_index" (error.rule.map countText)
  | .assemblyFinished devices failures =>
    [("device_count", countText devices), ("failure_count", countText failures)]
  | .processFinished service failures diagnostics =>
    [("service", service), ("failure_count", countText failures),
      ("diagnostic_count", countText diagnostics)]

end LogEntry

/-! ## Records -/

/-- An entry, within a run or outside of any. -/
structure LogRecord where
  run : Option RunId
  entry : LogEntry

namespace LogRecord

/-- Every named text of a record: the run, the step of an operation, and the facts. -/
def fields (r : LogRecord) : List (String × String) :=
  LogEntry.optionalField "run_id" (r.run.map RunId.text) ++
    (match r.entry.operation? with
      | none => []
      | some step =>
        [("component", step.component), ("op", step.operation), ("event", step.event)]) ++
    r.entry.facts

end LogRecord

namespace EventLog

def ofOperation (operation : String) (entries : List LogRecord) : List LogRecord :=
  entries.filter fun r => r.entry.operation?.any fun step => step.operation == operation

def ofLevel (level : LogLevel) (entries : List LogRecord) : List LogRecord :=
  entries.filter fun r => r.entry.level = level

end EventLog

end FabricFootprint
