import FabricFootprint.Footprint
import FabricFootprint.Text.Substring

/-!
FabricFootprint.Component — service components: named conjunctions of tests on extracted data.

A component holds when all of its keys hold. Evaluating the components of a service gives
a bitmap with one bit per component, in declaration order; `buildLayouts` does so for
every key of a footprint.
-/

namespace FabricFootprint

/-! ## Tests -/

/-- How a component key tests the data. -/
inductive ComponentMatch where
  /-- The field is present, and equals the expected value unless any value will do. -/
  | equal
  /-- The field is present and differs from the expected value. -/
  | notEqual
  /-- Some field name contains the key's name. -/
  | subkey
  deriving DecidableEq, Inhabited

def ComponentMatch.name : ComponentMatch → String
  | .equal => "equal"
  | .notEqual => "not-equal"
  | .subkey => "subkey"

def ComponentMatch.ofName? (name : String) : Option ComponentMatch :=
  [ComponentMatch.equal, .notEqual, .subkey].find? fun m => m.name == name

/-- The expected value that any present field fulfils. -/
def anyValue : String := "anyValue"

/-- A test on one field, or on the field names. -/
structure ComponentKey where
  name : String
  value : Value
  matchType : ComponentMatch
  deriving DecidableEq, Inhabited

/-- Whether a key holds on some data. -/
def ComponentKey.holds (key : ComponentKey) (data : Record) : Bool :=
  match key.matchType with
  | .subkey => data.names.any fun name => Text.contains name key.name
  | .equal => (data.get? key.name).any fun v => v == key.value || key.value == .str anyValue
  | .notEqual => (data.get? key.name).any fun v => v != key.value

/-- A named conjunction of tests. -/
structure ServiceComponent where
  name : String
  keys : List ComponentKey
  deriving DecidableEq, Inhabited

/-- Whether all keys of a component hold. -/
def ServiceComponent.holds (component : ServiceComponent) (data : Record) : Bool :=
  component.keys.all fun key => key.holds data

/-! ## Bitmaps -/

/-- The truth of one component. -/
structure ComponentBit where
  name : String
  value : Bool
  deriving DecidableEq, Inhabited

/-- The truth of every component, in declaration order. -/
abbrev Bitmap := List ComponentBit

/-- The bit of a name; the first counts when a name repeats. -/
def Bitmap.bit? (bitmap : Bitmap) (name : String) : Option Bool :=
  (bitmap.find? fun b => b.name == name).map ComponentBit.value

def evaluate (components : List ServiceComponent) (data : Record) : Bitmap :=
  components.map fun component => ⟨component.name, component.holds data⟩

/-- The bitmap of one key. -/
structure ServiceLayout where
  key : String
  bitmap : Bitmap
  deriving DecidableEq, Inhabited

/-- The bitmaps of one device. -/
structure DeviceLayouts where
  device : String
  layouts : List ServiceLayout
  deriving DecidableEq, Inhabited

/-- The bitmap of every key of a footprint. -/
def buildLayouts (components : List ServiceComponent) (footprint : Footprint) :
    List DeviceLayouts :=
  footprint.map fun d =>
    ⟨d.device, d.entries.map fun e => ⟨e.key, evaluate components e.data⟩⟩

end FabricFootprint
