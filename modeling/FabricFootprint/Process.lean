import FabricFootprint.Assembly
import FabricFootprint.Service

/-!
FabricFootprint.Process — one request end to end: assemble, evaluate, classify.

`process` runs a compiled service over a key list for every device of a store. The
footprint, the bitmaps and the classifications have the same devices and keys at the same
places; a key whose extraction failed is in none of them. Every log record of the request
carries its run identity.
-/

namespace FabricFootprint

/-- Everything modeled for one service over one key list. -/
structure ProcessedData where
  service : String
  keys : List String
  components : List String
  footprint : Footprint
  layouts : List DeviceLayouts
  types : List DeviceServiceTypes
  deriving DecidableEq, Inhabited

/-- The outcome of one request. -/
structure ProcessReport where
  run : RunId
  processed : ProcessedData
  failures : List DeviceFailure
  diagnostics : List Diagnostic
  deriving DecidableEq, Inhabited

/-- A report together with the log of making it. -/
structure Processing where
  report : ProcessReport
  log : List LogRecord

/-- Models a service over a key list for every device of a store. -/
def process (run : RunId) (service : CompiledService) (store : ChunkStore)
    (keys : List String) (registry : ConversionRegistry) : Processing :=
  let assembly := assemble store keys service.rules registry
  let layouts := buildLayouts service.components assembly.report.footprint
  let report : ProcessReport :=
    { run := run
      processed :=
        { service := service.name
          keys := keys
          components := service.componentNames
          footprint := assembly.report.footprint
          layouts := layouts
          types := classifyLayouts layouts service.catalog }
      failures := assembly.report.failures
      diagnostics := assembly.report.diagnostics }
  let entries :=
    [LogEntry.processStarted service.name store.devices.length keys.length] ++ assembly.log ++
      [.processFinished service.name report.failures.length report.diagnostics.length]
  { report := report, log := entries.map fun entry => ⟨some run, entry⟩ }

end FabricFootprint
