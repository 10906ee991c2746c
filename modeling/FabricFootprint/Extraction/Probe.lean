import FabricFootprint.Extraction.Filters
import FabricFootprint.Rule

/-!
FabricFootprint.Extraction.Probe — combinations of captured values that
records are searched for.

`Probe.build` forms, for a list of directives, every combination of one captured value per
directive, the first directive varying slowest. The suffix of a probe is a dot and the text of
each value, in the order of the directives. Without directives there is no probe.
-/

namespace FabricFootprint

/-- Fields with the values a record has to carry, and the suffix for the
names of its copies. -/
structure Probe where
  pairs : List (String × Value)
  suffix : String
  deriving DecidableEq, Inhabited

namespace Probe

def accepts (probe : Probe) (record : Record) : Bool :=
  probe.pairs.all fun p => record.get? p.1 == some p.2

def extend (probe : Probe) (field : String) (v : Value) : Probe :=
  ⟨probe.pairs ++ [(field, v)], probe.suffix ++ "." ++ v.text⟩

/-- Every probe extended by every value captured for a directive. -/
def extendAll (filters : FilterTable) (probes : List Probe) (directive : SearchDirective) :
    List Probe :=
  probes.flatMap fun probe =>
    (filters.values directive.searchFrom).map fun v => probe.extend directive.searchFor v

/-- The probes of a list of directives. -/
def build (filters : FilterTable) (directives : List SearchDirective) : List Probe :=
  if directives.isEmpty then [] else directives.foldl (extendAll filters) [⟨[], ""⟩]

end Probe

end FabricFootprint
