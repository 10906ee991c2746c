import FabricFootprint.Value

/-!
FabricFootprint.Rule — declarative extraction rules.

A rule reads one chunk. Its match step selects records by comparing a field with a seed; then
it copies fields of the selected records into the data under names built by `fieldName`:

* the common keys of the first selected record, under their qualified names;
* for each split-search entry, keys of the records that carry a combination of captured
  values, with these values appended to the names;
* for a combine-by, keys of the records grouped by the value of an option field, with this
  value appended to the names.
-/

namespace FabricFootprint

/-! ## Parts of a rule -/

inductive Linkage where
  /-- The seed is the extraction key itself. -/
  | direct
  /-- The seed is a field of the data written so far. -/
  | indirect
  /-- The rule has no seed. -/
  | noLink
  deriving DecidableEq, Inhabited

def Linkage.name : Linkage → String
  | .direct => "direct"
  | .indirect => "indirect"
  | .noLink => "no-link"

def Linkage.ofName? (name : String) : Option Linkage :=
  [Linkage.direct, .indirect, .noLink].find? fun l => l.name == name

/-- How a rule selects records of its chunk. -/
inductive MatchType where
  /-- The field equals the seed. -/
  | full
  /-- One of the texts in the field and in the seed contains the other. -/
  | containment
  /-- Every record is selected. -/
  | noMatch
  deriving DecidableEq, Inhabited

def MatchType.name : MatchType → String
  | .full => "full"
  | .containment => "partial"
  | .noMatch => "no-match"

def MatchType.ofName? (name : String) : Option MatchType :=
  [MatchType.full, .containment, .noMatch].find? fun m => m.name == name

/-- Captures the distinct values of a field under a name, for later split-search. -/
structure Filter where
  name : String
  key : String
  deriving DecidableEq, Inhabited

/-- Compares a field of a record with the values captured under a filter's name. -/
structure SearchDirective where
  searchFrom : String
  searchFor : String
  deriving DecidableEq, Inhabited

/-- Copies keys of the records that carry a combination of captured values. -/
structure SplitSearch where
  keys : List String
  directives : List SearchDirective
  qualifier : String
  deriving DecidableEq, Inhabited

/-- Copies keys of the records grouped by the value of an option field. -/
structure CombineBy where
  option : String
  keys : List String
  deriving DecidableEq, Inhabited

/-! ## Rules -/

/-- An extraction rule. -/
structure Rule where
  chunk : String
  sourceName : String
  sourceType : Option ValueType
  destName : String
  destType : Option ValueType
  linkage : Linkage
  matchType : MatchType
  commonKeys : List String
  qualifier : String
  filter : Option Filter
  splitSearch : List SplitSearch
  combineBy : Option CombineBy
  deriving DecidableEq, Inhabited

namespace Rule

/-- The declared conversion of the seed: there is one when both types are set. -/
def conversion? (rule : Rule) : Option (ValueType × ValueType) :=
  match rule.sourceType, rule.destType with
  | some source, some target => some (source, target)
  | _, _ => none

def hasMatchStep (rule : Rule) : Bool := rule.matchType != .noMatch

/-- The filter of the rule; one without a name is a placeholder and captures nothing. -/
def activeFilter? (rule : Rule) : Option Filter := rule.filter.filter fun f => !f.name.isEmpty

end Rule

/-- The name that a copied field gets in the data: an optional qualifier with a dot before it,
and a suffix after it. -/
def fieldName (qualifier name suffix : String) : String :=
  if qualifier.isEmpty then name ++ suffix else qualifier ++ "." ++ name ++ suffix

end FabricFootprint
