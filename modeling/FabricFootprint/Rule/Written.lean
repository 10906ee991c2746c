import FabricFootprint.Rule
import FabricFootprint.Text.Substring

/-!
FabricFootprint.Rule.Written — which field names a list of rules can write.

A rule's common keys are written under names known in advance. The names written by
split-search and combine-by end in captured values, so only their stems are known:
everything up to and including the dot before the values. `WrittenFields` over-approximates
the written names by both kinds.
-/

namespace FabricFootprint

/-- Field names that rules can write: some exactly, some by their stem. -/
structure WrittenFields where
  exact : List String
  stems : List String
  deriving Inhabited

namespace WrittenFields

def none : WrittenFields := ⟨[], []⟩

/-- Whether a field can have been written. -/
def contains (w : WrittenFields) (field : String) : Bool :=
  w.exact.contains field || w.stems.any fun stem => Text.startsWith field stem

theorem contains_eq_true_iff {w : WrittenFields} {field : String} : w.contains field = true ↔
    field ∈ w.exact ∨ ∃ stem ∈ w.stems, stem.toList <+: field.toList := by
  simp [contains, Text.startsWith_iff]

/-- The names of a rule's common keys. -/
def exactOf (rule : Rule) : List String :=
  rule.commonKeys.map fun key => fieldName rule.qualifier key ""

/-- The stems of the names that a rule's split-search and combine-by write. -/
def stemsOf (rule : Rule) : List String :=
  (rule.splitSearch.flatMap fun entry =>
      entry.keys.map fun key => fieldName entry.qualifier key ".") ++
    match rule.combineBy with
    | .none => []
    | some combine => combine.keys.map fun key => key ++ "."

/-- The fields that can have been written once `rule` has run as well. -/
def record (w : WrittenFields) (rule : Rule) : WrittenFields :=
  ⟨w.exact ++ exactOf rule, w.stems ++ stemsOf rule⟩

def ofRules (rules : List Rule) : WrittenFields := rules.foldl record none

end WrittenFields

end FabricFootprint
