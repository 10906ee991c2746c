/-!
FabricFootprint.CommandLine.Arguments — what the words of a command line ask for.

* `Command` — the five commands with their files and switches.
* `OptionSpec`, `scanOptions` — options by their long and short names. A value follows as the
  next word, after an equals sign, or right after a short name; the next word is no value when
  it looks like an option itself.
* `isProper` — an option may be given once, unless it collects values; paths are not empty,
  and a choice is one of its words.
* `Command.parse` — the command of the words, or nothing when they are no proper command line.
-/

namespace FabricFootprint.CommandLine

/-! ## Commands -/

/-- The files and switches of the commands that model a service. -/
structure ModelFiles where
  service : String
  chunks : String
  keys : String
  /-- Whether the full report is written. -/
  report : Bool
  output : Option String
  deriving DecidableEq

inductive Command where
  | validate (service : String)
  | footprint (files : ModelFiles)
  | classify (files : ModelFiles)
  | select (footprint : String) (fields : List String) (output : Option String)
  | diff (desired observed : String) (summary : Bool) (output : Option String)
  deriving DecidableEq

/-! ## Options -/

/-- What an option takes as its value. -/
inductive OptionValue where
  /-- Nothing: the option is a switch. -/
  | absent
  /-- A path, which is not empty. -/
  | path
  /-- Any text. -/
  | text
  /-- One of some words. -/
  | choice (words : List String)

/-- Whether an option takes a value at all. -/
def OptionValue.isTaken : OptionValue → Bool
  | .absent => false
  | _ => true

def OptionValue.accepts : OptionValue → String → Bool
  | .path, word => !word.isEmpty
  | .choice words, word => words.contains word
  | _, _ => true

/-- An option that a command takes. -/
structure OptionSpec where
  long : String
  short : Option Char
  value : OptionValue
  /-- Whether the option may be given again, to collect values. -/
  repeats : Bool

def fileOption (long : String) (short : Char) : OptionSpec := ⟨long, some short, .path, false⟩

def switch (long : String) : OptionSpec := ⟨long, none, .absent, false⟩

/-- The option that chooses the form of log lines; every command takes it. -/
def logFormat : OptionSpec := ⟨"log-format", none, .choice ["pretty", "json"], false⟩

/-- An option as given: its long name and its value, empty for a switch. -/
abbrev Given := String × String

/-- Whether a word looks like an option; a single dash does not. -/
def looksLikeOption (word : String) : Bool :=
  match word.toList with
  | '-' :: _ :: _ => true
  | _ => false

/-- A word split at its first equals sign. -/
def splitEquals (cs : List Char) : List Char × Option (List Char) :=
  match cs.dropWhile (· != '=') with
  | [] => (cs, none)
  | _ :: value => (cs.takeWhile (· != '='), some value)

/-- The option that a word names, and the value attached to it. -/
def namedOption? (specs : List OptionSpec) (word : String) :
    Option (OptionSpec × Option String) :=
  match word.toList with
  | '-' :: '-' :: cs =>
    let (name, value) := splitEquals cs
    (specs.find? fun spec => spec.long == String.ofList name).map fun spec =>
      (spec, value.map String.ofList)
  | '-' :: c :: cs =>
    (specs.find? fun spec => spec.short == some c).map fun spec =>
      (spec,
        match cs with
        | [] => none
        | '=' :: value => some (String.ofList value)
        | value => some (String.ofList value))
  | _ => none

/-- The options that words give; `none` when a word is no option, a value is missing or
attached to a switch. -/
def scanOptions (specs : List OptionSpec) : List String → Option (List Given)
  | [] => some []
  | word :: rest =>
    match namedOption? specs word with
    | none => if word = "--" ∧ rest.isEmpty then some [] else none
    | some (spec, attached) =>
      if spec.value.isTaken then
        match attached, rest with
        | some value, rest => (scanOptions specs rest).map ((spec.long, value) :: ·)
        | none, [] => none
        | none, value :: rest =>
          if looksLikeOption value then none
          else (scanOptions specs rest).map ((spec.long, value) :: ·)
      else if attached.isSome then none
      else (scanOptions specs rest).map ((spec.long, "") :: ·)

/-- The values given for an option, in order. -/
def valuesOf (given : List Given) (name : String) : List String :=
  given.filterMap fun g => if g.1 = name then some g.2 else none

def valueOf? (given : List Given) (name : String) : Option String :=
  (valuesOf given name).head?

/-- Whether no option is given more often than it may be, or with a value that will not do. -/
def isProper (specs : List OptionSpec) (given : List Given) : Bool :=
  specs.all fun spec =>
    let values := valuesOf given spec.long
    (spec.repeats || decide (values.length ≤ 1)) && values.all spec.value.accepts

/-- The options of words, each given as often as it may be and with proper values. -/
def properOptions? (specs : List OptionSpec) (words : List String) : Option (List Given) :=
  let specs := logFormat :: specs
  (scanOptions specs words).filter fun given => isProper specs given

/-! ## Parsing -/

/-- The options of the commands that model a service. -/
def modelOptions : List OptionSpec :=
  [fileOption "service" 's', fileOption "chunks" 'c', fileOption "keys" 'k',
    switch "report", fileOption "output" 'o']

/-- The files of a command that models a service. -/
def parseModel? (words : List String) : Option ModelFiles := do
  let given ← properOptions? modelOptions words
  return {
    service := ← valueOf? given "service"
    chunks := ← valueOf? given "chunks"
    keys := ← valueOf? given "keys"
    report := (valueOf? given "report").isSome
    output := valueOf? given "output" }

/-- The options of the command that selects fields. -/
def selectOptions : List OptionSpec :=
  [fileOption "footprint" 'f', ⟨"field", none, .text, true⟩, fileOption "output" 'o']

/-- A selection: at least one field. -/
def parseSelect? (words : List String) : Option Command := do
  let given ← properOptions? selectOptions words
  let footprint ← valueOf? given "footprint"
  let fields := valuesOf given "field"
  if fields.isEmpty then none else return .select footprint fields (valueOf? given "output")

/-- The options of the command that compares footprints. -/
def diffOptions : List OptionSpec :=
  [fileOption "desired" 'd', fileOption "observed" 'b', switch "summary",
    fileOption "output" 'o']

def parseDiff? (words : List String) : Option Command := do
  let given ← properOptions? diffOptions words
  return .diff (← valueOf? given "desired") (← valueOf? given "observed")
    (valueOf? given "summary").isSome (valueOf? given "output")

def parseValidate? (words : List String) : Option Command := do
  let given ← properOptions? [fileOption "service" 's'] words
  return .validate (← valueOf? given "service")

def parseNamed? (name : String) (words : List String) : Option Command :=
  if name = "validate" then parseValidate? words
  else if name = "footprint" then (parseModel? words).map .footprint
  else if name = "classify" then (parseModel? words).map .classify
  else if name = "select" then parseSelect? words
  else if name = "diff" then parseDiff? words
  else none

/-- The options before the command's name, and the words from the name on. -/
def leadingOptions : List String → List String × List String
  | [] => ([], [])
  | word :: rest =>
    if looksLikeOption word then
      if word = "--" ++ logFormat.long then
        match rest with
        | [] => ([word], [])
        | value :: rest =>
          let (options, words) := leadingOptions rest
          (word :: value :: options, words)
      else
        let (options, words) := leadingOptions rest
        (word :: options, words)
    else ([], word :: rest)

def Command.parse (words : List String) : Option Command :=
  match leadingOptions words with
  | (_, []) => none
  | (options, name :: rest) =>
    if options.contains "--" then none
    else
      match properOptions? [] options with
      | none => none
      | some _ => parseNamed? name rest

end FabricFootprint.CommandLine
