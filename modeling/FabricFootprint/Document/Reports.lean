import FabricFootprint.Chunks
import FabricFootprint.Diff
import FabricFootprint.Document.Rules
import FabricFootprint.Process

/-!
FabricFootprint.Document.Reports — chunk stores, footprints, reports and
diffs as document trees.

Optional members of a diagnostic are not written when they are absent. A classification is
written as its text, and read back from it.
-/

namespace FabricFootprint

variable {σ : Type} [Scalar σ]

def Node.record? (node : Node σ) : Option Record := node.map? Node.value?

/-! ## Chunk stores -/

namespace DeviceChunks

def shape : List Node.Member := ["DeviceName", "Chunks"]

def decode? (node : Node σ) : Option DeviceChunks := do
  let fields ← node.fields? shape
  return {
    name := ← fields.required "DeviceName" Node.text?
    chunks := ←
      fields.withDefault "Chunks" FieldMap.empty (Node.map? (Node.items? Node.record?)) }

def encode (device : DeviceChunks) : Node Datum :=
  Node.ofMembers
    [("DeviceName", Node.ofText device.name),
      ("Chunks", Node.ofMap (Node.ofItems Node.ofRecord) device.chunks)]

end DeviceChunks

namespace ChunkStore

/-- Reads a chunk store: the list of its devices. -/
def decode? (node : Node σ) : Option ChunkStore :=
  (node.items? DeviceChunks.decode?).map ChunkStore.mk

def encode (store : ChunkStore) : Node Datum := Node.ofItems DeviceChunks.encode store.devices

end ChunkStore

/-! ## Footprints -/

namespace DataEntry

def shape : List Node.Member := ["Key", "Data"]

def decode? (node : Node σ) : Option DataEntry := do
  let fields ← node.fields? shape
  return {
    key := ← fields.required "Key" Node.text?
    data := ← fields.required "Data" Node.record? }

def encode (entry : DataEntry) : Node Datum :=
  Node.ofMembers [("Key", Node.ofText entry.key), ("Data", Node.ofRecord entry.data)]

end DataEntry

namespace DeviceFootprint

def shape : List Node.Member := ["DeviceName", "DeviceData"]

def decode? (node : Node σ) : Option DeviceFootprint := do
  let fields ← node.fields? shape
  return {
    device := ← fields.required "DeviceName" Node.text?
    entries := ← fields.withDefault "DeviceData" [] (Node.items? DataEntry.decode?) }

def encode (d : DeviceFootprint) : Node Datum :=
  Node.ofMembers
    [("DeviceName", Node.ofText d.device),
      ("DeviceData", Node.ofItems DataEntry.encode d.entries)]

end DeviceFootprint

namespace Footprint

def decode? : Node σ → Option Footprint := Node.items? DeviceFootprint.decode?

def encode (footprint : Footprint) : Node Datum :=
  Node.ofItems DeviceFootprint.encode footprint

end Footprint

def encodeSelection (selection : FieldMap (FieldMap Record)) : Node Datum :=
  Node.ofMap (Node.ofMap Node.ofRecord) selection

/-! ## Diagnostics -/

namespace Diagnostic

def shape : List Node.Member := ["code", "message", "device", "key", "rule_index"]

def decode? (node : Node σ) : Option Diagnostic := do
  let fields ← node.fields? shape
  return {
    code := ← fields.required "code" Node.text?
    message := ← fields.required "message" Node.text?
    device := ← fields.optional "device" Node.text?
    key := ← fields.optional "key" Node.text?
    rule := ← fields.optional "rule_index" Node.count? }

def encode (d : Diagnostic) : Node Datum :=
  Node.ofMembers
    ([("code", Node.ofText d.code), ("message", Node.ofText d.message)] ++
      Node.optionalMember "device" Node.ofText d.device ++
      Node.optionalMember "key" Node.ofText d.key ++
      Node.optionalMember "rule_index" Node.ofCount d.rule)

end Diagnostic

namespace DeviceFailure

def shape : List Node.Member := ["DeviceName", "Key", "Error"]

def decode? (node : Node σ) : Option DeviceFailure := do
  let fields ← node.fields? shape
  return {
    device := ← fields.required "DeviceName" Node.text?
    key := ← fields.required "Key" Node.text?
    error := ← fields.required "Error" Diagnostic.decode? }

def encode (f : DeviceFailure) : Node Datum :=
  Node.ofMembers
    [("DeviceName", Node.ofText f.device), ("Key", Node.ofText f.key),
      ("Error", Diagnostic.encode f.error)]

end DeviceFailure

def AssemblyReport.encode (report : AssemblyReport) : Node Datum :=
  Node.ofMembers
    [("footprint", Footprint.encode report.footprint),
      ("failures", Node.ofItems DeviceFailure.encode report.failures),
      ("diagnostics", Node.ofItems Diagnostic.encode report.diagnostics)]

/-! ## Bitmaps and classifications -/

namespace ComponentBit

def shape : List Node.Member := ["Name", "Value"]

def decode? (node : Node σ) : Option ComponentBit := do
  let fields ← node.fields? shape
  return {
    name := ← fields.required "Name" Node.text?
    value := ← fields.required "Value" Node.bool? }

def encode (b : ComponentBit) : Node Datum :=
  Node.ofMembers [("Name", Node.ofText b.name), ("Value", Node.ofBool b.value)]

end ComponentBit

namespace Bitmap

def decode? : Node σ → Option Bitmap := Node.items? ComponentBit.decode?

def encode (bitmap : Bitmap) : Node Datum := Node.ofItems ComponentBit.encode bitmap

end Bitmap

namespace ServiceLayout

def shape : List Node.Member := ["Key", "Data"]

def decode? (node : Node σ) : Option ServiceLayout := do
  let fields ← node.fields? shape
  return {
    key := ← fields.required "Key" Node.text?
    bitmap := ← fields.required "Data" Bitmap.decode? }

def encode (layout : ServiceLayout) : Node Datum :=
  Node.ofMembers [("Key", Node.ofText layout.key), ("Data", Bitmap.encode layout.bitmap)]

end ServiceLayout

namespace DeviceLayouts

def shape : List Node.Member := ["DeviceName", "ServiceLayouts"]

def decode? (node : Node σ) : Option DeviceLayouts := do
  let fields ← node.fields? shape
  return {
    device := ← fields.required "DeviceName" Node.text?
    layouts := ← fields.withDefault "ServiceLayouts" [] (Node.items? ServiceLayout.decode?) }

def encode (d : DeviceLayouts) : Node Datum :=
  Node.ofMembers
    [("DeviceName", Node.ofText d.device),
      ("ServiceLayouts", Node.ofItems ServiceLayout.encode d.layouts)]

end DeviceLayouts

namespace Classification

def decode? (node : Node σ) : Option Classification := node.text?.map ofText

def encode (c : Classification) : Node Datum := Node.ofText c.text

end Classification

namespace ServiceTypeEntry

def shape : List Node.Member := ["Key", "ServiceType"]

def decode? (node : Node σ) : Option ServiceTypeEntry := do
  let fields ← node.fields? shape
  return {
    key := ← fields.required "Key" Node.text?
    serviceType := ← fields.required "ServiceType" Classification.decode? }

def encode (entry : ServiceTypeEntry) : Node Datum :=
  Node.ofMembers
    [("Key", Node.ofText entry.key), ("ServiceType", Classification.encode entry.serviceType)]

end ServiceTypeEntry

namespace DeviceServiceTypes

def shape : List Node.Member := ["DeviceName", "ServiceTypes"]

def decode? (node : Node σ) : Option DeviceServiceTypes := do
  let fields ← node.fields? shape
  return {
    device := ← fields.required "DeviceName" Node.text?
    types := ← fields.withDefault "ServiceTypes" [] (Node.items? ServiceTypeEntry.decode?) }

def encode (d : DeviceServiceTypes) : Node Datum :=
  Node.ofMembers
    [("DeviceName", Node.ofText d.device),
      ("ServiceTypes", Node.ofItems ServiceTypeEntry.encode d.types)]

end DeviceServiceTypes

/-! ## Process reports -/

namespace ProcessedData

def shape : List Node.Member :=
  ["ServiceName", "Keys", "ServiceComponents", "DeviceFootprintDB", "ServiceFootprintDB",
    "ServiceTypeDB"]

def decode? (node : Node σ) : Option ProcessedData := do
  let fields ← node.fields? shape
  return {
    service := ← fields.required "ServiceName" Node.text?
    keys := ← fields.required "Keys" Node.texts?
    components := ← fields.required "ServiceComponents" Node.texts?
    footprint := ← fields.required "DeviceFootprintDB" Footprint.decode?
    layouts := ← fields.required "ServiceFootprintDB" (Node.items? DeviceLayouts.decode?)
    types := ← fields.required "ServiceTypeDB" (Node.items? DeviceServiceTypes.decode?) }

def encode (d : ProcessedData) : Node Datum :=
  Node.ofMembers
    [("ServiceName", Node.ofText d.service), ("Keys", Node.ofTexts d.keys),
      ("ServiceComponents", Node.ofTexts d.components),
      ("DeviceFootprintDB", Footprint.encode d.footprint),
      ("ServiceFootprintDB", Node.ofItems DeviceLayouts.encode d.layouts),
      ("ServiceTypeDB", Node.ofItems DeviceServiceTypes.encode d.types)]

end ProcessedData

namespace RunId

def decode? (node : Node σ) : Option RunId := node.text?.map RunId.mk

def encode (run : RunId) : Node Datum := Node.ofText run.text

end RunId

namespace ProcessReport

def shape : List Node.Member := ["run_id", "processed", "failures", "diagnostics"]

def decode? (node : Node σ) : Option ProcessReport := do
  let fields ← node.fields? shape
  return {
    run := ← fields.required "run_id" RunId.decode?
    processed := ← fields.required "processed" ProcessedData.decode?
    failures := ← fields.withDefault "failures" [] (Node.items? DeviceFailure.decode?)
    diagnostics := ← fields.withDefault "diagnostics" [] (Node.items? Diagnostic.decode?) }

def encode (report : ProcessReport) : Node Datum :=
  Node.ofMembers
    [("run_id", RunId.encode report.run),
      ("processed", ProcessedData.encode report.processed),
      ("failures", Node.ofItems DeviceFailure.encode report.failures),
      ("diagnostics", Node.ofItems Diagnostic.encode report.diagnostics)]

end ProcessReport

/-! ## Diffs -/

def DiffEntry.encode (entry : DiffEntry) : Node Datum :=
  Node.ofMembers
    [("Key", Node.ofText entry.key), ("ToChange", Node.ofRecord entry.toChange),
      ("ToAdd", Node.ofRecord entry.toAdd), ("ToDelete", Node.ofRecord entry.toDelete)]

def DeviceDiff.encode (d : DeviceDiff) : Node Datum :=
  Node.ofMembers
    [("DeviceName", Node.ofText d.device),
      ("DiffData", Node.ofItems DiffEntry.encode d.entries)]

def DeviceChange.encode (change : DeviceChange) : Node Datum :=
  Node.ofMembers
    [("DeviceName", Node.ofText change.device), ("Changed", Node.ofBool change.changed)]

end FabricFootprint
