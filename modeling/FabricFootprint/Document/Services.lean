import FabricFootprint.Document.Rules
import FabricFootprint.Service

/-!
FabricFootprint.Document.Services — service definitions as document trees.
-/

namespace FabricFootprint

variable {σ : Type} [Scalar σ]

namespace ComponentKey

def shape : List Node.Member := ["Name", "Value", "MatchType"]

def decode? (node : Node σ) : Option ComponentKey := do
  let fields ← node.fields? shape
  return {
    name := ← fields.required "Name" Node.text?
    value := ← fields.withDefault "Value" .null Node.value?
    matchType := ← fields.required "MatchType" (Node.named? ComponentMatch.ofName?) }

def encode (key : ComponentKey) : Node Datum :=
  Node.ofMembers
    [("Name", Node.ofText key.name), ("Value", Node.ofValue key.value),
      ("MatchType", Node.ofText key.matchType.name)]

end ComponentKey

namespace ServiceComponent

def shape : List Node.Member := ["ComponentName", "ComponentKeys"]

def decode? (node : Node σ) : Option ServiceComponent := do
  let fields ← node.fields? shape
  return {
    name := ← fields.required "ComponentName" Node.text?
    keys := ← fields.withDefault "ComponentKeys" [] (Node.items? ComponentKey.decode?) }

def encode (component : ServiceComponent) : Node Datum :=
  Node.ofMembers
    [("ComponentName", Node.ofText component.name),
      ("ComponentKeys", Node.ofItems ComponentKey.encode component.keys)]

end ServiceComponent

namespace ServiceTypeDefinition

def shape : List Node.Member := ["Name", "Components"]

def decode? (node : Node σ) : Option ServiceTypeDefinition := do
  let fields ← node.fields? shape
  return {
    name := ← fields.required "Name" Node.text?
    components := ← fields.withDefault "Components" FieldMap.empty (Node.map? Node.bool?) }

def encode (definition : ServiceTypeDefinition) : Node Datum :=
  Node.ofMembers
    [("Name", Node.ofText definition.name),
      ("Components", Node.ofMap Node.ofBool definition.components)]

end ServiceTypeDefinition

namespace ServiceTypeCatalog

def shape : List Node.Member := ["Family", "Definitions"]

def decode? (node : Node σ) : Option ServiceTypeCatalog := do
  let fields ← node.fields? shape
  return {
    family := ← fields.withDefault "Family" "" Node.text?
    definitions := ←
      fields.withDefault "Definitions" [] (Node.items? ServiceTypeDefinition.decode?) }

def encode (catalog : ServiceTypeCatalog) : Node Datum :=
  Node.ofMembers
    [("Family", Node.ofText catalog.family),
      ("Definitions", Node.ofItems ServiceTypeDefinition.encode catalog.definitions)]

end ServiceTypeCatalog

namespace ChunkDefinition

def pathShape : List Node.Member := ["Path"]

def decodePath? (node : Node σ) : Option String := do
  let fields ← node.fields? pathShape
  fields.required "Path" Node.text?

def encodePath (path : String) : Node Datum := Node.ofMembers [("Path", Node.ofText path)]

def shape : List Node.Member := ["ChunkName", "Paths"]

def decode? (node : Node σ) : Option ChunkDefinition := do
  let fields ← node.fields? shape
  return {
    chunk := ← fields.required "ChunkName" Node.text?
    paths := ← fields.withDefault "Paths" [] (Node.items? decodePath?) }

def encode (definition : ChunkDefinition) : Node Datum :=
  Node.ofMembers
    [("ChunkName", Node.ofText definition.chunk),
      ("Paths", Node.ofItems encodePath definition.paths)]

end ChunkDefinition

namespace ServiceDefinition

def shape : List Node.Member :=
  ["ServiceName", "DMEProcessing", "ServiceConstructPath", "ServiceComponents",
    "ServiceTypes"]

def decode? (node : Node σ) : Option ServiceDefinition := do
  let fields ← node.fields? shape
  return {
    name := ← fields.required "ServiceName" Node.text?
    chunks := ← fields.withDefault "DMEProcessing" [] (Node.items? ChunkDefinition.decode?)
    rules := ← fields.withDefault "ServiceConstructPath" [] (Node.items? Rule.decode?)
    components := ←
      fields.withDefault "ServiceComponents" [] (Node.items? ServiceComponent.decode?)
    catalog := ← fields.withDefault "ServiceTypes" ⟨"", []⟩ ServiceTypeCatalog.decode? }

def encode (definition : ServiceDefinition) : Node Datum :=
  Node.ofMembers
    [("ServiceName", Node.ofText definition.name),
      ("DMEProcessing", Node.ofItems ChunkDefinition.encode definition.chunks),
      ("ServiceConstructPath", Node.ofItems Rule.encode definition.rules),
      ("ServiceComponents", Node.ofItems ServiceComponent.encode definition.components),
      ("ServiceTypes", ServiceTypeCatalog.encode definition.catalog)]

end ServiceDefinition

end FabricFootprint
