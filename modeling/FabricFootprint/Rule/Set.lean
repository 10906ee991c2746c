import FabricFootprint.Conversion
import FabricFootprint.Rule.Written

/-!
FabricFootprint.Rule.Set — rule lists that have been checked.

`RuleSet.check` walks a rule list once and reports the first configuration fault, so that
running the rules never discovers an ordering mistake: a rule with an indirect seed reads a
field that some earlier rule can write, and a split-search reads filters captured by rules up
to it. The checks of one rule come in a fixed order: its chunk, its match step, its
split-search, its combine-by.
-/

namespace FabricFootprint

namespace Rule

/-! ## Checks of one rule -/

/-- The chunk is named, and declared when declarations are known. -/
def checkChunk (known : Option (List String)) (index : Nat) (rule : Rule) :
    Except Fault Unit :=
  if rule.chunk.isEmpty then .error (.invalidRule index .chunkNameEmpty)
  else if known.all fun chunks => chunks.contains rule.chunk then .ok ()
  else .error (.unknownChunk index rule.chunk)

/-- The seed of a match step: direct, or a field that can have been written. -/
def checkLinkage (written : WrittenFields) (index : Nat) (rule : Rule) : Except Fault Unit :=
  match rule.linkage with
  | .direct => .ok ()
  | .indirect =>
    if rule.sourceName.isEmpty then .error (.invalidRule index .indirectNeedsSource)
    else if written.contains rule.sourceName then .ok ()
    else .error (.ruleOrderViolation index rule.sourceName)
  | .noLink => .error (.invalidRule index .matchNeedsLinkage)

def checkConversion (registry : ConversionRegistry) (index : Nat) (rule : Rule) :
    Except Fault Unit :=
  match rule.conversion? with
  | none => .ok ()
  | some (source, target) =>
    if registry.isRegistered source target then .ok ()
    else .error (.unregisteredConversion index source target)

/-- The match step, when the rule has one. -/
def checkMatchStep (registry : ConversionRegistry) (written : WrittenFields) (index : Nat)
    (rule : Rule) : Except Fault Unit :=
  if !rule.hasMatchStep then .ok ()
  else if rule.destName.isEmpty then .error (.invalidRule index .noDestination)
  else if rule.matchType = .containment ∧ rule.destType.any (· != .string) then
    .error (.invalidRule index .partialNeedsText)
  else do
    rule.checkConversion registry index
    rule.checkLinkage written index

/-- The directives of a split-search entry: one or two, each reading a captured filter. -/
def checkDirectives (captured : List String) (index : Nat) (entry : SplitSearch) :
    Except Fault Unit :=
  if entry.directives.length < 1 ∨ 2 < entry.directives.length then
    .error (.invalidSplitSearch index entry.directives.length)
  else
    match entry.directives.find? fun d => !captured.contains d.searchFrom with
    | some d => .error (.unknownFilter index d.searchFrom)
    | none => .ok ()

/-- The split-search entries, in order. -/
def checkSplitSearch (captured : List String) (index : Nat) :
    List SplitSearch → Except Fault Unit
  | [] => .ok ()
  | entry :: rest => do
    checkDirectives captured index entry
    checkSplitSearch captured index rest

/-- The option field of a combine-by is named. -/
def checkCombineBy (index : Nat) (rule : Rule) : Except Fault Unit :=
  if rule.combineBy.any fun c => c.option.isEmpty then
    .error (.invalidRule index .combineOptionEmpty)
  else .ok ()

/-- The names of the filters captured once the rule has run as well. -/
def capturedWith (captured : List String) (rule : Rule) : List String :=
  match rule.activeFilter? with
  | none => captured
  | some f => captured ++ [f.name]

/-- All checks of one rule, after rules that can write `written` and capture `captured`. -/
def check (registry : ConversionRegistry) (known : Option (List String))
    (written : WrittenFields) (captured : List String) (index : Nat)
    (rule : Rule) : Except Fault Unit := do
  rule.checkChunk known index
  rule.checkMatchStep registry written index
  checkSplitSearch (rule.capturedWith captured) index rule.splitSearch
  rule.checkCombineBy index

end Rule

/-! ## Rule lists -/

/-- A rule list that has been checked. -/
structure RuleSet where
  rules : List Rule
  deriving DecidableEq, Inhabited

namespace RuleSet

/-- The checks of a rule list from a position on. -/
def checkFrom (registry : ConversionRegistry) (known : Option (List String)) :
    WrittenFields → List String → Nat → List Rule → Except Fault Unit
  | _, _, _, [] => .ok ()
  | written, captured, index, rule :: rest => do
    rule.check registry known written captured index
    checkFrom registry known (written.record rule) (rule.capturedWith captured)
      (index + 1) rest

/-- The first configuration fault of a rule list. -/
def check (registry : ConversionRegistry) (known : Option (List String)) (rules : List Rule) :
    Except Fault Unit :=
  checkFrom registry known .none [] 0 rules

/-- The rule set of a rule list that passes all checks. `known` lists the declared chunks; it
is absent when there are no declarations. -/
def ofRules (registry : ConversionRegistry) (known : Option (List String))
    (rules : List Rule) : Except Fault RuleSet := do
  check registry known rules
  return ⟨rules⟩

def size (set : RuleSet) : Nat := set.rules.length

def isEmpty (set : RuleSet) : Bool := set.rules.isEmpty

end RuleSet

end FabricFootprint
