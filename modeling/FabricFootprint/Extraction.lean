import FabricFootprint.Chunks
import FabricFootprint.Extraction.Select
import FabricFootprint.Extraction.Writes
import FabricFootprint.Incident
import FabricFootprint.Rule.Set

/-!
FabricFootprint.Extraction — running a rule set for one key on one device.

The rules run strictly in order over a `Progress`: the data written so far, the captured
filters and the issues met. A missing field or an empty chunk is no error: the rule adds
nothing. A value of the wrong type, or a seed that its converter refuses, is an issue of that
rule, and the run goes on. Only a conversion that nobody registered ends the run.

* `Progress.step` — one rule.
* `Extraction.run` — a rule list from a position on.
* `extract` — the whole rule set, from no data.
-/

namespace FabricFootprint

/-! ## Runs -/

/-- What stays fixed during a run. -/
structure RunContext where
  key : String
  device : DeviceChunks
  registry : ConversionRegistry

/-- What a run has gathered. -/
structure Progress where
  data : Record
  filters : FilterTable
  issues : List Incident

namespace Progress

def start : Progress := ⟨FieldMap.empty, FilterTable.empty, []⟩

def withIssue (p : Progress) (issue : Incident) : Progress :=
  { p with issues := p.issues ++ [issue] }

end Progress

namespace RunContext

/-- A report labelled with the place it happened at. -/
def locate (context : RunContext) (index : Nat) (e : Incident) : Incident :=
  e.located "extract" context.device.name context.key index

/-- The report of mistyped values in a chunk: the type of the first, and
how many there are. -/
def mistypedIssue (context : RunContext) (index : Nat) (rule : Rule) (seed : Value)
    (first : String) (count : Nat) : Incident :=
  let e := Incident.ofFault (.typeMismatch index rule.destName seed.typeName first)
  context.locate index
    { e with message := e.message ++ " (" ++ Decimal.countText count ++ " records skipped)" }

/-- The report of a seed that is no text, where texts are compared. -/
def seedIssue (context : RunContext) (index : Nat) (rule : Rule) (seed : Value) : Incident :=
  context.locate index
    (Incident.ofFault (.typeMismatch index rule.sourceName "string" seed.typeName))

def refusedIssue (context : RunContext) (index : Nat) (fault : ConversionFault) : Incident :=
  context.locate index (Incident.ofFault (fault.atRule index))

end RunContext

/-! ## One rule -/

namespace Rule

/-- The records that a seed selects, and the issue that the selection raises. -/
def selectWithIssue (context : RunContext) (index : Nat) (rule : Rule) (seed : Value)
    (chunk : List Record) : List Record × Option Incident :=
  if rule.matchType = .containment ∧ seed.str? = none then
    ([], some (context.seedIssue index rule seed))
  else
    let scan := rule.scan seed chunk
    (scan.selected, scan.firstMistyped.map fun first =>
      context.mistypedIssue index rule seed first scan.mistypedCount)

theorem selectWithIssue_eq (context : RunContext) (index : Nat) (rule : Rule) (seed : Value)
    (chunk : List Record) :
    rule.selectWithIssue context index seed chunk =
      if rule.matchType = .containment ∧ seed.str? = none then
        ([], some (context.seedIssue index rule seed))
      else
        (rule.select seed chunk,
          match rule.mistyped seed chunk with
          | [] => none
          | first :: rest =>
              some (context.mistypedIssue index rule seed first (rest.length + 1))) := by
  rw [selectWithIssue, scan_eq]
  cases rule.mistyped seed chunk <;> rfl

/-- The records that a rule works on, and the issue raised on the way. The only fault is a
conversion that is not registered. -/
def candidates (context : RunContext) (index : Nat) (rule : Rule) (data : Record) :
    Except Fault (List Record × Option Incident) :=
  let chunk := context.device.records rule.chunk
  if rule.hasMatchStep then
    match rule.seed context.registry context.key data with
    | .absent => .ok ([], none)
    | .found seed => .ok (rule.selectWithIssue context index seed chunk)
    | .refused fault => .ok ([], some (context.refusedIssue index fault))
    | .unregistered fault => .error (fault.atRule index)
  else .ok (chunk, none)

end Rule

namespace Progress

/-- The run after a rule has worked on its candidates; without candidates nothing changes. -/
def absorb (p : Progress) (rule : Rule) (records : List Record) : Progress :=
  if records.isEmpty then p
  else
    let filters := rule.captureFilter p.filters records
    { p with data := applyWrites p.data (rule.writes filters records), filters := filters }

def step (context : RunContext) (index : Nat) (rule : Rule) (p : Progress) :
    Except Fault Progress :=
  match rule.candidates context index p.data with
  | .error fault => .error fault
  | .ok (records, none) => .ok (p.absorb rule records)
  | .ok (records, some issue) => .ok ((p.withIssue issue).absorb rule records)

end Progress

/-! ## Whole runs -/

/-- The facts extracted for one key, and the issues met on the way. -/
structure Extraction where
  key : String
  data : Record
  issues : List Incident

namespace Extraction

/-- Runs rules from a position on. A fault is labelled with the place it happened at. -/
def run (context : RunContext) : Nat → List Rule → Progress → Except Incident Progress
  | _, [], p => .ok p
  | index, rule :: rest, p =>
    match p.step context index rule with
    | .error fault => .error (context.locate index (Incident.ofFault fault))
    | .ok p => run context (index + 1) rest p

end Extraction

/-- Runs a rule set for one key on one device. -/
def extract (key : String) (device : DeviceChunks) (rules : RuleSet)
    (registry : ConversionRegistry) : Except Incident Extraction :=
  match Extraction.run ⟨key, device, registry⟩ 0 rules.rules Progress.start with
  | .error e => .error e
  | .ok p => .ok ⟨key, p.data, p.issues⟩

end FabricFootprint
