import FabricFootprint.Document.Node
import FabricFootprint.Rule

/-!
FabricFootprint.Document.Rules — rules as document trees.

Member names are those of service definitions. Five members of a rule may also be read under
the names of an older form. Absent optional members are not written.
-/

namespace FabricFootprint

variable {σ : Type} [Scalar σ]

namespace ValueType

def decode? : Node σ → Option ValueType := Node.named? ofName?

def encode (t : ValueType) : Node Datum := Node.ofText t.name

end ValueType

namespace Filter

def shape : List Node.Member := ["Name", "Key"]

def decode? (node : Node σ) : Option Filter := do
  let fields ← node.fields? shape
  return {
    name := ← fields.withDefault "Name" "" Node.text?
    key := ← fields.withDefault "Key" "" Node.text? }

def encode (f : Filter) : Node Datum :=
  Node.ofMembers [("Name", Node.ofText f.name), ("Key", Node.ofText f.key)]

end Filter

namespace SearchDirective

def shape : List Node.Member := ["SearchFrom", "SearchFor"]

def decode? (node : Node σ) : Option SearchDirective := do
  let fields ← node.fields? shape
  return {
    searchFrom := ← fields.required "SearchFrom" Node.text?
    searchFor := ← fields.required "SearchFor" Node.text? }

def encode (d : SearchDirective) : Node Datum :=
  Node.ofMembers
    [("SearchFrom", Node.ofText d.searchFrom), ("SearchFor", Node.ofText d.searchFor)]

end SearchDirective

def Node.texts? (node : Node σ) : Option (List String) := node.items? Node.text?

def Node.ofTexts (texts : List String) : Node Datum := Node.ofItems Node.ofText texts

namespace SplitSearch

def shape : List Node.Member :=
  ["SplitSearchKeys", "SplitSearchDirectives", "SplitSearchKeysPrefix"]

def decode? (node : Node σ) : Option SplitSearch := do
  let fields ← node.fields? shape
  return {
    keys := ← fields.withDefault "SplitSearchKeys" [] Node.texts?
    directives := ←
      fields.withDefault "SplitSearchDirectives" [] (Node.items? SearchDirective.decode?)
    qualifier := ← fields.withDefault "SplitSearchKeysPrefix" "" Node.text? }

def encode (entry : SplitSearch) : Node Datum :=
  Node.ofMembers
    [("SplitSearchKeys", Node.ofTexts entry.keys),
      ("SplitSearchDirectives", Node.ofItems SearchDirective.encode entry.directives),
      ("SplitSearchKeysPrefix", Node.ofText entry.qualifier)]

end SplitSearch

namespace CombineBy

def shape : List Node.Member := ["CombineByOptionName", "CombineByOptionKeys"]

def decode? (node : Node σ) : Option CombineBy := do
  let fields ← node.fields? shape
  return {
    option := ← fields.required "CombineByOptionName" Node.text?
    keys := ← fields.withDefault "CombineByOptionKeys" [] Node.texts? }

def encode (combine : CombineBy) : Node Datum :=
  Node.ofMembers
    [("CombineByOptionName", Node.ofText combine.option),
      ("CombineByOptionKeys", Node.ofTexts combine.keys)]

end CombineBy

namespace Rule

/-- The members of a rule, with the older names of five of them. -/
def shape : List Node.Member :=
  ["ChunkName", ⟨"KeySourceName", some "KeySName"⟩, ⟨"KeySourceType", some "KeySType"⟩,
    ⟨"KeyDestName", some "KeyDName"⟩, ⟨"KeyDestType", some "KeyDType"⟩,
    ⟨"Linkage", some "KeyLink"⟩, "MatchType", "CommonKeysList",
    "CommonKeysListPrefix", "Filter", "SplitSearch", "CombineBy"]

def decode? (node : Node σ) : Option Rule := do
  let fields ← node.fields? shape
  return {
    chunk := ← fields.required "ChunkName" Node.text?
    sourceName := ← fields.withDefault "KeySourceName" "" Node.text?
    sourceType := ← fields.optional "KeySourceType" ValueType.decode?
    destName := ← fields.withDefault "KeyDestName" "" Node.text?
    destType := ← fields.optional "KeyDestType" ValueType.decode?
    linkage := ← fields.withDefault "Linkage" .noLink (Node.named? Linkage.ofName?)
    matchType := ← fields.withDefault "MatchType" .noMatch (Node.named? MatchType.ofName?)
    commonKeys := ← fields.withDefault "CommonKeysList" [] Node.texts?
    qualifier := ← fields.withDefault "CommonKeysListPrefix" "" Node.text?
    filter := ← fields.optional "Filter" Filter.decode?
    splitSearch := ← fields.withDefault "SplitSearch" [] (Node.items? SplitSearch.decode?)
    combineBy := ← fields.optional "CombineBy" CombineBy.decode? }

/-- The members that a rule is written with. -/
def members (rule : Rule) : List (String × Node Datum) :=
  [("ChunkName", Node.ofText rule.chunk), ("KeySourceName", Node.ofText rule.sourceName)] ++
    Node.optionalMember "KeySourceType" ValueType.encode rule.sourceType ++
    [("KeyDestName", Node.ofText rule.destName)] ++
    Node.optionalMember "KeyDestType" ValueType.encode rule.destType ++
    [("Linkage", Node.ofText rule.linkage.name),
      ("MatchType", Node.ofText rule.matchType.name),
      ("CommonKeysList", Node.ofTexts rule.commonKeys),
      ("CommonKeysListPrefix", Node.ofText rule.qualifier)] ++
    Node.optionalMember "Filter" Filter.encode rule.filter ++
    [("SplitSearch", Node.ofItems SplitSearch.encode rule.splitSearch)] ++
    Node.optionalMember "CombineBy" CombineBy.encode rule.combineBy

def encode (rule : Rule) : Node Datum := Node.ofMembers rule.members

end Rule

end FabricFootprint
