import FabricFootprint.CommandLine.Arguments
import FabricFootprint.Document.Reports
import FabricFootprint.Document.ServiceFile
import FabricFootprint.Json.Writer

/-!
FabricFootprint.CommandLine.Execute — what the commands do.

A command reads its files in a fixed order and stops at the first fault. Its result is a
document, written to the output file or printed; failures and issues of single keys are told
on the error stream and do not stop it. `execute` runs over any file access, so the same
definition serves the program and a pure folder.
-/

namespace FabricFootprint.CommandLine

/-- What a run of the program leaves behind, files aside: its exit code and
the lines it printed. -/
structure Outcome where
  exit : Nat
  output : List String
  errors : List String
  deriving DecidableEq

/-- A run that can stop with a message; error lines gathered so far are kept. -/
abbrev Run (m : Type → Type) := ExceptT String (StateT (List String) m)

section Commands

variable {m : Type → Type} [Monad m] (files : FileAccess m)

/-- Prints a line on the error stream. -/
def warn (line : String) : Run m Unit := modify (· ++ [line])

def readDocument {α : Type} (path : String) (decode : Json → Option α) : Run m α := do
  match ← (files.read path : m _) with
  | .error failure => throw ("cannot read " ++ path ++ ": " ++ failure.message)
  | .ok text =>
    match (Json.read text).bind decode with
    | some a => return a
    | none => throw ("cannot parse " ++ path ++ ": the text is not such a document")

/-- Writes a document to a file, or returns it as a line to print. -/
def writeDocument (path : Option String) (tree : Node Datum) : Run m (List String) := do
  let text := (Json.ofData tree).pretty
  match path with
  | none => return [text]
  | some path =>
    match ← (files.write path text : m _) with
    | .error failure => throw failure.message
    | .ok () =>
      warn ("✓ Wrote " ++ path)
      return []

/-- The compiled service of a definition file. -/
def readService (path : String) : Run m CompiledService := do
  let content ← (files.read path : m _)
  match ServiceDefinition.ofFile path content with
  | .error fault => throw fault.explanation
  | .ok definition =>
    match definition.compile ConversionRegistry.standard with
    | .error fault => throw fault.explanation
    | .ok service => return service

def summary (service : CompiledService) : Node Datum :=
  Node.ofMembers
    [("Rules", Node.ofCount service.rules.size),
      ("ServiceComponents", Node.ofTexts service.componentNames),
      ("ServiceName", Node.ofText service.name),
      ("ServiceTypes",
        Node.ofTexts (service.catalog.definitions.map ServiceTypeDefinition.name))]

/-- Models a service over its files, telling failures and issues. -/
def model (run : RunId) (job : ModelFiles) : Run m ProcessReport := do
  let service ← readService files job.service
  let store ← readDocument files job.chunks ChunkStore.decode?
  let keys ← readDocument files job.keys Node.texts?
  let report := (process run service store keys ConversionRegistry.standard).report
  for failure in report.failures do
    warn ("✗ " ++ failure.device ++ "/" ++ failure.key ++
      ": [" ++ failure.error.code ++ "] " ++ failure.error.message)
  if !report.diagnostics.isEmpty then
    warn ("! " ++ Decimal.countText report.diagnostics.length ++ " data-quality issues")
  return report

/-- Runs a command; the lines it prints are its result. -/
def runCommand (run : RunId) : Command → Run m (List String)
  | .validate path => do
    let service ← readService files path
    return [(Json.ofData (summary service)).pretty]
  | .footprint job => do
    let report ← model files run job
    writeDocument files job.output
      (if job.report then report.encode else Footprint.encode report.processed.footprint)
  | .classify job => do
    let report ← model files run job
    writeDocument files job.output
      (if job.report then report.encode
        else Node.ofItems DeviceServiceTypes.encode report.processed.types)
  | .select path fields output => do
    let footprint ← readDocument files path Footprint.decode?
    writeDocument files output (encodeSelection (selectFields footprint fields))
  | .diff desiredPath observedPath changesOnly output => do
    let desired ← readDocument files desiredPath Footprint.decode?
    let observed ← readDocument files observedPath Footprint.decode?
    match diffFootprints desired observed with
    | .error e =>
      for orphan in e.details.getD [] do
        warn ("  unpaired: " ++ orphan)
      throw e.line
    | .ok diffs =>
      writeDocument files output
        (if changesOnly then Node.ofItems DeviceChange.encode (changeReport diffs)
          else Node.ofItems DeviceDiff.encode diffs)

/-- The exit code of a command line that is no command. -/
def usageExit : Nat := 2

def execute (run : RunId) (words : List String) : m Outcome := do
  match Command.parse words with
  | none => return ⟨usageExit, [], []⟩
  | some command =>
    let (result, errors) ← ((runCommand files run command).run).run []
    match result with
    | .ok lines => return ⟨0, lines, errors⟩
    | .error message => return ⟨1, [], errors ++ ["Error: " ++ message]⟩

end Commands

end FabricFootprint.CommandLine
