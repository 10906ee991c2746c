import FabricFootprint.Classification
import FabricFootprint.Rule.Set

/-!
FabricFootprint.Service — service definitions, and compiling them.

A definition names the chunks to collect, the extraction rules, the components and the
type definitions of one service. `ServiceDefinition.compile` checks it once, in the
order: its name, its rules, its components, its types; the first fault is reported. A
compiled service keeps rules, components and types as they were; a catalog without a
family gets the service's name.
-/

namespace FabricFootprint

/-! ## Definitions -/

/-- A chunk and the paths that fill it. -/
structure ChunkDefinition where
  chunk : String
  paths : List String
  deriving DecidableEq, Inhabited

/-- The definition of one service. -/
structure ServiceDefinition where
  name : String
  chunks : List ChunkDefinition
  rules : List Rule
  components : List ServiceComponent
  catalog : ServiceTypeCatalog
  deriving DecidableEq, Inhabited

/-- A definition that has been checked. -/
structure CompiledService where
  name : String
  rules : RuleSet
  components : List ServiceComponent
  catalog : ServiceTypeCatalog
  deriving DecidableEq, Inhabited

namespace CompiledService

/-- The component names, in declaration order. -/
def componentNames (service : CompiledService) : List String :=
  service.components.map ServiceComponent.name

end CompiledService

namespace ServiceDefinition

/-- The declared chunk names in increasing order; without declarations
every chunk is allowed. -/
def knownChunks (definition : ServiceDefinition) : Option (List String) :=
  if definition.chunks.isEmpty then none
  else some (FieldMap.ofList (definition.chunks.map fun c => (c.chunk, ()))).names

/-! ## Checks -/

def checkName (definition : ServiceDefinition) : Except Fault Unit :=
  if (Text.trim definition.name).isEmpty then
    .error (.invalidDefinition "ServiceName is empty")
  else .ok ()

/-- Component names are distinct, and every component has a key; `seen` holds the names of the
components before. -/
def checkComponents : List String → List ServiceComponent → Except Fault Unit
  | _, [] => .ok ()
  | seen, component :: rest =>
    if seen.contains component.name then .error (.duplicateComponent component.name)
    else if component.keys.isEmpty then .error (.emptyComponent component.name)
    else checkComponents (component.name :: seen) rest

/-- A type name is neither reserved nor taken, and every component that the type names is
declared; `seen` holds the names of the types before. -/
def checkTypes (declared : List String) :
    List String → List ServiceTypeDefinition → Except Fault Unit
  | _, [] => .ok ()
  | seen, definition :: rest =>
    if definition.name = notExistText ∨ definition.name = notDefinedText then
      .error (.reservedServiceType definition.name)
    else if seen.contains definition.name then .error (.duplicateServiceType definition.name)
    else
      match definition.components.names.find? fun c => !declared.contains c with
      | some component => .error (.unknownComponent definition.name component)
      | none => checkTypes declared (definition.name :: seen) rest

/-! ## Compiling -/

/-- The catalog with the service's name in place of an empty family. -/
def namedCatalog (definition : ServiceDefinition) : ServiceTypeCatalog :=
  if definition.catalog.family.isEmpty then
    { definition.catalog with family := definition.name }
  else definition.catalog

def compile (definition : ServiceDefinition) (registry : ConversionRegistry) :
    Except Fault CompiledService := do
  definition.checkName
  let rules ← RuleSet.ofRules registry definition.knownChunks definition.rules
  checkComponents [] definition.components
  checkTypes (definition.components.map ServiceComponent.name) []
    definition.catalog.definitions
  return ⟨definition.name, rules, definition.components, definition.namedCatalog⟩

end ServiceDefinition

end FabricFootprint
