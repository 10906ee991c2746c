import FabricFootprint.Decimal
import FabricFootprint.FieldMap

/-!
FabricFootprint.Value — the scalar values of flat device records.

* `Value` — null, a truth value, a 64-bit integer, a floating-point number or a text.
  Equality tells the kinds apart and compares numbers by their bit pattern, so it is an
  equivalence on all values.
* `ValueType` — the four types a value can have; null has none.
* `Value.text` — the written form of any value; `Value.segment?` — the same form as a part of
  a field name, which null does not have.
* `Record` — a flat record of named values.
-/

namespace FabricFootprint

/-! ## Types -/

/-- The type of a value that is not null. -/
inductive ValueType where
  | string
  | integer
  | float
  | bool
  deriving DecidableEq, Inhabited

def ValueType.name : ValueType → String
  | .string => "string"
  | .integer => "integer"
  | .float => "float"
  | .bool => "bool"

/-- The type with a given name; some types have several names. -/
def ValueType.ofName? (name : String) : Option ValueType :=
  if name = "string" then some .string
  else if name = "integer" ∨ name = "int" ∨ name = "int64" then some .integer
  else if name = "float" ∨ name = "float64" then some .float
  else if name = "bool" ∨ name = "boolean" then some .bool
  else none

theorem ValueType.ofName?_name (t : ValueType) : ValueType.ofName? t.name = some t := by
  cases t <;> decide

/-! ## Values -/

inductive Value where
  | null
  | bool (b : Bool)
  | int (i : Int64)
  | float (x : Binary64)
  | str (s : String)
  deriving DecidableEq, Inhabited

/-- A flat record: named values. -/
abbrev Record := FieldMap Value

namespace Value

/-- The type of a value; null has none. -/
def type? : Value → Option ValueType
  | .null => none
  | .bool _ => some .bool
  | .int _ => some .integer
  | .float _ => some .float
  | .str _ => some .string

def typeName (v : Value) : String :=
  match v.type? with
  | none => "null"
  | some t => t.name

def str? : Value → Option String
  | .str s => some s
  | _ => none

def int? : Value → Option Int64
  | .int i => some i
  | _ => none

def isNull : Value → Bool
  | .null => true
  | _ => false

def boolText (b : Bool) : String := if b then "true" else "false"

def text : Value → String
  | .null => "null"
  | .bool b => boolText b
  | .int i => Decimal.integerText i.toInt
  | .float x => x.text
  | .str s => s

/-- The written form of a value as a part of a dotted field name; null has none. -/
def segment? : Value → Option String
  | .null => none
  | .bool b => some (boolText b)
  | .int i => some (Decimal.integerText i.toInt)
  | .float x => some x.text
  | .str s => some s

/-- The value of a field, when the field is present and not null. -/
def ofField? (record : Record) (field : String) : Option Value :=
  (record.get? field).filter fun v => !v.isNull

theorem ofField?_eq_some_iff {record : Record} {field : String} {v : Value} :
    ofField? record field = some v ↔ record.get? field = some v ∧ v ≠ .null := by
  rw [ofField?, Option.filter_eq_some_iff]
  cases v <;> simp [isNull]

/-- As a part of a field name a value has the text that it has everywhere. -/
theorem segment?_eq_text {v : Value} (h : v ≠ .null) : v.segment? = some v.text := by
  cases v with
  | null => exact absurd rfl h
  | _ => rfl

end Value

end FabricFootprint
