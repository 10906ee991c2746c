import FabricFootprint.Fault
import FabricFootprint.Text.Blank
import FabricFootprint.Text.Substring

/-!
FabricFootprint.Conversion — conversions between the types that rules declare.

* `ConversionRegistry` — for each pair of types at most one converter.
* `ConversionRegistry.convert` — a pair of equal types is the identity and needs no converter;
  any other pair needs one, and is never passed over in silence.
* `ConversionRegistry.standard` — the conversions that device data usually needs.
-/

namespace FabricFootprint

/-- A conversion of one value; it refuses a value with a reason. -/
abbrev Converter := Value → Except String Value

/-! ## Faults -/

inductive ConversionFault where
  | unregistered (source target : ValueType)
  | failed (source target : ValueType) (value reason : String)
  deriving DecidableEq

namespace ConversionFault

def message : ConversionFault → String
  | .unregistered source target =>
    "no conversion registered from " ++ source.name ++ " to " ++ target.name
  | .failed source target value reason =>
    "cannot convert " ++ value ++ " from " ++ source.name ++ " to " ++ target.name ++
      ": " ++ reason

/-- The fault of the rule that asked for the conversion. -/
def atRule (rule : Nat) : ConversionFault → Fault
  | .unregistered source target => .unregisteredConversion rule source target
  | .failed source target value reason => .conversionFailed source target value reason

end ConversionFault

/-! ## Converters -/

namespace Converter

/-- The text that a converter works on. -/
def expectText (v : Value) : Except String String :=
  match v.str? with
  | some s => .ok s
  | none => .error ("expected a string, found " ++ v.typeName)

/-- A text that spells an integer, blanks around it aside. -/
def textToInteger : Converter := fun v => do
  let s ← expectText v
  match Decimal.readInteger (Text.trim s).toList with
  | .ok i => .ok (.int i)
  | .error fault => .error fault.message

/-- A text that spells a floating-point number, blanks around it aside. -/
def textToFloat : Converter := fun v => do
  let s ← expectText v
  match Decimal.readFloat (Text.trim s).toList with
  | .ok x => .ok (.float x)
  | .error fault => .error fault.message

/-- One of the words for a truth value, in any case of letters, blanks around it aside. -/
def textToBool : Converter := fun v => do
  let s ← expectText v
  let word := Text.lowerAscii (Text.trim s)
  if word = "true" ∨ word = "yes" ∨ word = "enabled" then .ok (.bool true)
  else if word = "false" ∨ word = "no" ∨ word = "disabled" then .ok (.bool false)
  else .error ("not a boolean: " ++ word)

def toText : Converter
  | .null => .error "null has no string form"
  | v => .ok (.str v.text)

/-- The floating-point number nearest to an integer. -/
def integerToFloat : Converter
  | .int i => .ok (.float (Binary64.ofInt i.toInt))
  | v => .error ("expected an integer, found " ++ v.typeName)

/-- The integer that a floating-point number denotes, when its magnitude is below `2 ^ 63`,
which is the number nearest to the greatest integer. -/
def floatToInteger : Converter
  | .float x =>
    match x.whole? with
    | some n =>
      if n.natAbs < Decimal.integerBound then .ok (.int (Int64.ofInt n))
      else .error (x.text ++ " is not a whole number")
    | none => .error (x.text ++ " is not a whole number")
  | v => .error ("expected a float, found " ++ v.typeName)

end Converter

/-! ## Registries -/

/-- The converters that are available, by source and target type. -/
structure ConversionRegistry where
  converter? : ValueType → ValueType → Option Converter

namespace ConversionRegistry

/-- No converter: only identities succeed. -/
def empty : ConversionRegistry := ⟨fun _ _ => none⟩

/-- The registry with a converter added, or replaced, for a pair. -/
def register (r : ConversionRegistry) (source target : ValueType) (f : Converter) :
    ConversionRegistry :=
  ⟨fun a b => if a = source ∧ b = target then some f else r.converter? a b⟩

/-- The conversions between texts and the other types, and between the two number types. -/
def standard : ConversionRegistry :=
  ⟨fun
    | .string, .integer => some Converter.textToInteger
    | .integer, .string => some Converter.toText
    | .string, .float => some Converter.textToFloat
    | .float, .string => some Converter.toText
    | .string, .bool => some Converter.textToBool
    | .bool, .string => some Converter.toText
    | .integer, .float => some Converter.integerToFloat
    | .float, .integer => some Converter.floatToInteger
    | _, _ => none⟩

/-- Whether a conversion between the pair can be attempted. -/
def isRegistered (r : ConversionRegistry) (source target : ValueType) : Bool :=
  source == target || (r.converter? source target).isSome

/-- The value converted from one type to another. -/
def convert (r : ConversionRegistry) (source target : ValueType) (v : Value) :
    Except ConversionFault Value :=
  if source = target then .ok v
  else
    match r.converter? source target with
    | none => .error (.unregistered source target)
    | some f =>
      match f v with
      | .ok w => .ok w
      | .error reason => .error (.failed source target v.text reason)

/-- A conversion is unregistered exactly when the registry lacks the pair. -/
theorem convert_unregistered_iff {r : ConversionRegistry} {source target a b : ValueType}
    {v : Value} : r.convert source target v = .error (.unregistered a b) ↔
      r.isRegistered source target = false ∧ a = source ∧ b = target := by
  unfold convert isRegistered
  by_cases h : source = target
  · simp [h]
  · cases hf : r.converter? source target with
    | none =>
      simp only [h, ↓reduceIte, Except.error.injEq, ConversionFault.unregistered.injEq,
        Option.isSome_none, Bool.or_false, true_and, beq_eq_false_iff_ne, ne_eq,
        not_false_eq_true]
      exact ⟨fun ⟨ha, hb⟩ => ⟨ha.symm, hb.symm⟩, fun ⟨ha, hb⟩ => ⟨ha.symm, hb.symm⟩⟩
    | some f =>
      simp only [h, ↓reduceIte]
      cases f v <;> simp

end ConversionRegistry

end FabricFootprint
