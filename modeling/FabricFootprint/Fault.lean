import FabricFootprint.Value

/-!
FabricFootprint.Fault — what can go wrong, as causes.

* `Fault` — a cause with the facts it was found with.
* `FaultKind` — the stable classification of causes: each kind has a code, and a kind is
  either a matter of configuration (a broken definition) or of data.
* `Fault.kind`, `Fault.summary`, `Fault.explanation`, `Fault.rule?` — the kind, the short
  wording, the full wording, and the index of the rule at fault.
-/

namespace FabricFootprint

/-! ## Kinds -/

inductive FaultKind where
  | invalidInput
  | invalidRule
  | unknownChunk
  | unknownFilter
  | ruleOrderViolation
  | unregisteredConversion
  | duplicateName
  | unknownComponent
  | reservedName
  | conversionFailed
  | typeMismatch
  | footprintMisaligned
  | io
  | serialization
  deriving DecidableEq, Inhabited

namespace FaultKind

def code : FaultKind → String
  | .invalidInput => "ERR_INVALID_INPUT"
  | .invalidRule => "ERR_INVALID_RULE"
  | .unknownChunk => "ERR_UNKNOWN_CHUNK"
  | .unknownFilter => "ERR_UNKNOWN_FILTER"
  | .ruleOrderViolation => "ERR_RULE_ORDER_VIOLATION"
  | .unregisteredConversion => "ERR_UNREGISTERED_CONVERSION"
  | .duplicateName => "ERR_DUPLICATE_NAME"
  | .unknownComponent => "ERR_UNKNOWN_COMPONENT"
  | .reservedName => "ERR_RESERVED_NAME"
  | .conversionFailed => "ERR_CONVERSION_FAILED"
  | .typeMismatch => "ERR_TYPE_MISMATCH"
  | .footprintMisaligned => "ERR_FOOTPRINT_MISALIGNED"
  | .io => "ERR_IO"
  | .serialization => "ERR_SERIALIZATION"

def label : FaultKind → String
  | .invalidInput => "InvalidInput"
  | .invalidRule => "InvalidRule"
  | .unknownChunk => "UnknownChunk"
  | .unknownFilter => "UnknownFilter"
  | .ruleOrderViolation => "RuleOrderViolation"
  | .unregisteredConversion => "UnregisteredConversion"
  | .duplicateName => "DuplicateName"
  | .unknownComponent => "UnknownComponent"
  | .reservedName => "ReservedName"
  | .conversionFailed => "ConversionFailed"
  | .typeMismatch => "TypeMismatch"
  | .footprintMisaligned => "FootprintMisaligned"
  | .io => "Io"
  | .serialization => "Serialization"

/-- Whether a kind describes a broken definition rather than bad data. -/
def isConfiguration : FaultKind → Bool
  | .conversionFailed | .typeMismatch | .footprintMisaligned | .io | .serialization => false
  | _ => true

def all : List FaultKind :=
  [.invalidInput, .invalidRule, .unknownChunk, .unknownFilter, .ruleOrderViolation,
    .unregisteredConversion, .duplicateName, .unknownComponent, .reservedName,
    .conversionFailed, .typeMismatch, .footprintMisaligned, .io, .serialization]

def ofCode? (code : String) : Option FaultKind := all.find? fun k => k.code == code

theorem ofCode?_code (k : FaultKind) : ofCode? k.code = some k := by
  cases k <;> decide

end FaultKind

/-! ## Causes -/

/-- Why a rule cannot be used at all. -/
inductive RuleDefect where
  | chunkNameEmpty
  | noDestination
  | partialNeedsText
  | indirectNeedsSource
  | matchNeedsLinkage
  | combineOptionEmpty
  /-- A defect in words of its own. -/
  | described (words : String)
  deriving DecidableEq

def RuleDefect.reason : RuleDefect → String
  | .chunkNameEmpty => "ChunkName is empty"
  | .noDestination => "a match step needs KeyDestName"
  | .partialNeedsText => "partial match compares strings; KeyDestType must be string"
  | .indirectNeedsSource => "indirect linkage needs KeySourceName"
  | .matchNeedsLinkage => "a match step needs direct or indirect linkage"
  | .combineOptionEmpty => "CombineByOptionName is empty"
  | .described words => words

/-- A cause of failure. Rules are named by their index in the rule list. -/
inductive Fault where
  /-- A rule declares a pair of types that no converter is registered for. -/
  | unregisteredConversion (rule : Nat) (source target : ValueType)
  /-- A rule reads a chunk that the service does not declare. -/
  | unknownChunk (rule : Nat) (chunk : String)
  /-- A rule takes its seed from a field that no earlier rule can write. -/
  | ruleOrderViolation (rule : Nat) (field : String)
  /-- A split-search directive reads a filter that has not been captured yet. -/
  | unknownFilter (rule : Nat) (filter : String)
  /-- A split-search entry has no directive or more than two. -/
  | invalidSplitSearch (rule : Nat) (directives : Nat)
  | invalidRule (rule : Nat) (defect : RuleDefect)
  | duplicateComponent (name : String)
  /-- A component has no keys to test. -/
  | emptyComponent (name : String)
  /-- A type definition names a component that is not declared. -/
  | unknownComponent (typeName component : String)
  | duplicateServiceType (name : String)
  /-- A type has the name of a classification that is not a type. -/
  | reservedServiceType (name : String)
  | invalidDefinition (reason : String)
  /-- A converter refused a value. -/
  | conversionFailed (source target : ValueType) (value reason : String)
  /-- A field has another type than the rule needs. -/
  | typeMismatch (rule : Nat) (field expected found : String)
  /-- Two footprints do not pair up by device and key. -/
  | footprintMisaligned (orphans : List String)
  | io (path message : String)
  | serialization (message : String)
  deriving DecidableEq

namespace Fault

open Decimal (countText)

def kind : Fault → FaultKind
  | .unregisteredConversion .. => .unregisteredConversion
  | .unknownChunk .. => .unknownChunk
  | .ruleOrderViolation .. => .ruleOrderViolation
  | .unknownFilter .. => .unknownFilter
  | .invalidSplitSearch .. => .invalidRule
  | .invalidRule .. => .invalidRule
  | .duplicateComponent .. => .duplicateName
  | .emptyComponent .. => .invalidInput
  | .unknownComponent .. => .unknownComponent
  | .duplicateServiceType .. => .duplicateName
  | .reservedServiceType .. => .reservedName
  | .invalidDefinition .. => .invalidInput
  | .conversionFailed .. => .conversionFailed
  | .typeMismatch .. => .typeMismatch
  | .footprintMisaligned .. => .footprintMisaligned
  | .io .. => .io
  | .serialization .. => .serialization

/-- The index of the rule at fault. A refused conversion does not name its rule. -/
def rule? : Fault → Option Nat
  | .unregisteredConversion rule .. | .unknownChunk rule .. | .ruleOrderViolation rule ..
  | .unknownFilter rule .. | .invalidSplitSearch rule .. | .invalidRule rule ..
  | .typeMismatch rule .. => some rule
  | _ => none

/-- The short wording, for reports that name the rule elsewhere. -/
def summary : Fault → String
  | .unregisteredConversion _ source target =>
    "No conversion registered from " ++ source.name ++ " to " ++ target.name
  | .unknownChunk _ chunk => "Undeclared chunk: " ++ chunk
  | .ruleOrderViolation _ field => "Field " ++ field ++ " is read before it is written"
  | .unknownFilter _ filter => "Filter " ++ filter ++ " is not captured"
  | .invalidSplitSearch _ directives =>
    "Split-search needs one or two directives, got " ++ countText directives
  | .invalidRule _ defect => defect.reason
  | .duplicateComponent name => "Duplicate service component: " ++ name
  | .emptyComponent name => "Service component " ++ name ++ " has no keys"
  | .unknownComponent typeName component =>
    "Service type " ++ typeName ++ " references unknown component " ++ component
  | .duplicateServiceType name => "Duplicate service type: " ++ name
  | .reservedServiceType name => "Service type name is reserved: " ++ name
  | .invalidDefinition reason => reason
  | .conversionFailed source target value reason =>
    "Cannot convert " ++ value ++ " from " ++ source.name ++ " to " ++ target.name ++
      ": " ++ reason
  | .typeMismatch _ field expected found =>
    "Field " ++ field ++ " expected " ++ expected ++ ", found " ++ found
  | .footprintMisaligned orphans => countText orphans.length ++ " unpaired footprint entries"
  | .io path message => path ++ ": " ++ message
  | .serialization message => message

/-- The full wording, which names the rule. -/
def explanation : Fault → String
  | .unregisteredConversion rule source target =>
    "Rule #" ++ countText rule ++ ": no conversion registered from " ++
      source.name ++ " to " ++ target.name
  | .unknownChunk rule chunk =>
    "Rule #" ++ countText rule ++ " references undeclared chunk: " ++ chunk
  | .ruleOrderViolation rule field =>
    "Rule #" ++ countText rule ++ " reads field " ++ field ++
      " before any earlier rule writes it"
  | .unknownFilter rule filter =>
    "Rule #" ++ countText rule ++ " searches from filter " ++ filter ++
      " which no rule up to it captures"
  | .invalidSplitSearch rule directives =>
    "Rule #" ++ countText rule ++ ": split-search needs one or two directives, got " ++
      countText directives
  | .invalidRule rule defect => "Rule #" ++ countText rule ++ " is invalid: " ++ defect.reason
  | .duplicateComponent name => "Duplicate service component: " ++ name
  | .emptyComponent name => "Service component " ++ name ++ " has no component keys"
  | .unknownComponent typeName component =>
    "Service type " ++ typeName ++ " references unknown component: " ++ component
  | .duplicateServiceType name => "Duplicate service type: " ++ name
  | .reservedServiceType name => "Service type name is reserved: " ++ name
  | .invalidDefinition reason => "Invalid service definition: " ++ reason
  | .conversionFailed source target value reason =>
    "Cannot convert " ++ value ++ " from " ++ source.name ++ " to " ++ target.name ++
      ": " ++ reason
  | .typeMismatch rule field expected found =>
    "Rule #" ++ countText rule ++ ": field " ++ field ++ " expected " ++ expected ++
      ", found " ++ found
  | .footprintMisaligned orphans =>
    "Footprints are misaligned: " ++ countText orphans.length ++ " unpaired entries"
  | .io path message => "IO error on " ++ path ++ ": " ++ message
  | .serialization message => "Serialization error: " ++ message

/-- The items a fault is about, one by one. -/
def details? : Fault → Option (List String)
  | .footprintMisaligned orphans => some orphans
  | _ => none

end Fault

end FabricFootprint
