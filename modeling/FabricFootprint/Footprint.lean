import FabricFootprint.Incident

/-!
FabricFootprint.Footprint — the facts extracted from every device, and the
report of one assembly.

* `Footprint` — for each device, in order, the data of each key, in order.
  Names and keys may repeat.
* `Diagnostic`, `DeviceFailure` — incidents in the form that reports keep.
* `selectFields` — named fields out of a footprint, by device and key; an entry replaces an
  earlier one of the same device or key.
-/

namespace FabricFootprint

/-! ## Footprints -/

/-- The data extracted for one key. -/
structure DataEntry where
  key : String
  data : Record
  deriving DecidableEq, Inhabited

/-- The data of every key of one device. -/
structure DeviceFootprint where
  device : String
  entries : List DataEntry
  deriving DecidableEq, Inhabited

abbrev Footprint := List DeviceFootprint

/-! ## Reports -/

/-- An incident as reports keep it. -/
structure Diagnostic where
  code : String
  message : String
  device : Option String
  key : Option String
  rule : Option Nat
  deriving DecidableEq, Inhabited

def Diagnostic.ofIncident (e : Incident) : Diagnostic :=
  ⟨e.code, e.message, e.device, e.key, e.rule⟩

/-- A key of a device whose extraction did not complete. -/
structure DeviceFailure where
  device : String
  key : String
  error : Diagnostic
  deriving DecidableEq, Inhabited

/-- The outcome of one assembly. -/
@[ext] structure AssemblyReport where
  footprint : Footprint
  failures : List DeviceFailure
  diagnostics : List Diagnostic
  deriving DecidableEq, Inhabited

/-- Whether nothing failed and no issue was met. -/
def AssemblyReport.isClean (report : AssemblyReport) : Bool :=
  report.failures.isEmpty && report.diagnostics.isEmpty

/-! ## Selections -/

/-- The fields of a record that have one of the given names. -/
def selectNames (names : List String) (data : Record) : Record :=
  FieldMap.ofList (names.filterMap fun name => (data.get? name).map fun v => (name, v))

/-- The named fields of every key of every device. -/
def selectFields (footprint : Footprint) (names : List String) : FieldMap (FieldMap Record) :=
  FieldMap.ofList (footprint.map fun d =>
    (d.device, FieldMap.ofList (d.entries.map fun e => (e.key, selectNames names e.data))))

end FabricFootprint
