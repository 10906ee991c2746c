import FabricFootprint.Fault

/-!
FabricFootprint.Incident — a fault as it is reported: its kind and wording, labelled with the
operation, device, key and rule it happened at.

* `Incident.ofFault` — the report of a fault, without labels beyond its rule.
* `Incident.line` — the one-line form; absent labels and an empty message are left out.
-/

namespace FabricFootprint

/-- A labelled report of a fault. -/
structure Incident where
  kind : FaultKind
  operation : Option String
  device : Option String
  key : Option String
  rule : Option Nat
  message : String
  source : Option Incident
  details : Option (List String)

namespace Incident

/-- A report of a kind without labels and message. -/
def ofKind (kind : FaultKind) : Incident := ⟨kind, none, none, none, none, "", none, none⟩

instance : Inhabited Incident := ⟨ofKind default⟩

def ofFault (fault : Fault) : Incident :=
  { ofKind fault.kind with
    rule := fault.rule?
    message := fault.summary
    details := fault.details? }

def code (e : Incident) : String := e.kind.code

/-- The report labelled with the operation and with the device, key and
rule it happened at. -/
def located (e : Incident) (operation device key : String) (rule : Nat) : Incident :=
  { e with
    operation := some operation
    device := some device
    key := some key
    rule := some rule }

def labelText (before : String) (after : String) : Option String → String
  | none => ""
  | some label => before ++ label ++ after

def line (e : Incident) : String :=
  "[" ++ e.code ++ "]" ++ labelText " in operation '" "'" e.operation ++
    (if e.message.isEmpty then "" else ": " ++ e.message) ++
    labelText " (device: " ")" e.device ++ labelText " (key: " ")" e.key ++
    labelText " (rule: #" ")" (e.rule.map Decimal.countText)

end Incident

end FabricFootprint
