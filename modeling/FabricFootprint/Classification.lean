import FabricFootprint.Component

/-!
FabricFootprint.Classification — the service type that a bitmap fits best.

A type definition names components and the truth it expects of each. It qualifies for a
bitmap when every named component has the expected bit; its score is the number of
components it expects to be true. `classify` takes the qualifying definition with the
greatest score, the first one of equals. A bitmap without a true bit is not a service at
all, whatever the definitions.
-/

namespace FabricFootprint

/-! ## Definitions -/

/-- A named pattern of component truths. -/
structure ServiceTypeDefinition where
  name : String
  components : FieldMap Bool
  deriving DecidableEq, Inhabited

namespace ServiceTypeDefinition

/-- The number of components that the definition expects to be true. -/
def weight (definition : ServiceTypeDefinition) : Nat :=
  (definition.components.values.filter fun expected => expected).length

/-- Whether every named component has the expected bit; a component without a bit has none. -/
def qualifies (definition : ServiceTypeDefinition) (bitmap : Bitmap) : Bool :=
  definition.components.entries.all fun e => bitmap.bit? e.1 == some e.2

/-- The score of a definition that qualifies. -/
def score? (definition : ServiceTypeDefinition) (bitmap : Bitmap) : Option Nat :=
  if definition.qualifies bitmap then some definition.weight else none

theorem qualifies_eq_true_iff {definition : ServiceTypeDefinition} {bitmap : Bitmap} :
    definition.qualifies bitmap = true ↔ ∀ name expected,
      definition.components.get? name = some expected → bitmap.bit? name = some expected := by
  simp [qualifies, FieldMap.mem_entries_iff]

theorem score?_eq_some_iff {definition : ServiceTypeDefinition} {bitmap : Bitmap} {n : Nat} :
    definition.score? bitmap = some n ↔
      definition.qualifies bitmap = true ∧ definition.weight = n := by
  simp [score?]

end ServiceTypeDefinition

/-- The type definitions of one service family, in declaration order. -/
structure ServiceTypeCatalog where
  family : String
  definitions : List ServiceTypeDefinition
  deriving DecidableEq, Inhabited

/-! ## Classifications -/

/-- The text for a bitmap without a true bit. -/
def notExistText : String := "not-exist"

/-- The text for a bitmap that no definition fits. -/
def notDefinedText : String := "not-defined"

inductive Classification where
  | defined (name : String)
  /-- No component is true. -/
  | notExist
  /-- Some component is true, but no definition qualifies. -/
  | notDefined
  deriving DecidableEq, Inhabited

namespace Classification

def text : Classification → String
  | .defined name => name
  | .notExist => notExistText
  | .notDefined => notDefinedText

/-- The classification of a text; two texts are reserved. -/
def ofText (s : String) : Classification :=
  if s = notExistText then .notExist
  else if s = notDefinedText then .notDefined
  else .defined s

end Classification

/-- The leading definition and its score after some more definitions; only a greater
score takes the lead. -/
def leadAfter (bitmap : Bitmap) :
    Option (ServiceTypeDefinition × Nat) → List ServiceTypeDefinition →
      Option (ServiceTypeDefinition × Nat)
  | lead, [] => lead
  | lead, definition :: rest =>
    match definition.score? bitmap with
    | none => leadAfter bitmap lead rest
    | some score =>
      if lead.all fun l => l.2 < score then leadAfter bitmap (some (definition, score)) rest
      else leadAfter bitmap lead rest

def classify (bitmap : Bitmap) (catalog : ServiceTypeCatalog) : Classification :=
  if bitmap.all fun b => !b.value then .notExist
  else
    match leadAfter bitmap none catalog.definitions with
    | none => .notDefined
    | some (definition, _) => .defined definition.name

/-! ## Footprints -/

/-- The classification of one key. -/
structure ServiceTypeEntry where
  key : String
  serviceType : Classification
  deriving DecidableEq, Inhabited

/-- The classifications of one device. -/
structure DeviceServiceTypes where
  device : String
  types : List ServiceTypeEntry
  deriving DecidableEq, Inhabited

/-- The classification of every bitmap of a service footprint. -/
def classifyLayouts (layouts : List DeviceLayouts) (catalog : ServiceTypeCatalog) :
    List DeviceServiceTypes :=
  layouts.map fun d => ⟨d.device, d.layouts.map fun l => ⟨l.key, classify l.bitmap catalog⟩⟩

end FabricFootprint
