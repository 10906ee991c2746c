import FabricFootprint.Document.Node
import FabricFootprint.Text.Substring

/-!
FabricFootprint.Yaml.Scalar — the scalars of YAML documents and what they stand for.

A quoted scalar is a text. A plain scalar is a text too where a text is wanted, just as
written. Where any value will do, a plain scalar may stand for null, a truth value, an integer
or a floating-point number; anything else is a text.
-/

namespace FabricFootprint

inductive YamlScalar where
  | plain (s : String)
  | quoted (s : String)
  deriving DecidableEq, Inhabited

abbrev Yaml := Node YamlScalar

namespace YamlScalar

/-- Whether a plain scalar stands for null. -/
def isNullWord (s : String) : Bool :=
  s.isEmpty || s == "null" || s == "Null" || s == "NULL" || s == "~"

/-- The truth value that a plain scalar stands for. -/
def boolWord? (s : String) : Option Bool :=
  if s = "true" ∨ s = "True" ∨ s = "TRUE" then some true
  else if s = "false" ∨ s = "False" ∨ s = "FALSE" then some false
  else none

/-! ## Numbers -/

/-- The rest after a first character, if the characters start with it. -/
def after? (c : Char) : List Char → Option (List Char)
  | [] => none
  | d :: rest => if d = c then some rest else none

/-- The value of a digit in a base up to sixteen. -/
def digitIn? (base : Nat) (c : Char) : Option Nat :=
  let value? : Option Nat :=
    if c.isDigit then some (c.toNat - '0'.toNat)
    else if 'a' ≤ c ∧ c ≤ 'f' then some (c.toNat - 'a'.toNat + 10)
    else if 'A' ≤ c ∧ c ≤ 'F' then some (c.toNat - 'A'.toNat + 10)
    else none
  value?.filter fun v => v < base

/-- The natural number of a run of digits in a base; there is at least one. -/
def naturalIn? (base : Nat) (cs : List Char) : Option Nat :=
  if cs.isEmpty then none
  else (cs.mapM (digitIn? base)).map fun ds => ds.foldl (fun n d => n * base + d) 0

/-- The natural number of an unsigned scalar: hexadecimal, octal or binary after its
mark, otherwise decimal. -/
def natural? (cs : List Char) : Option Nat :=
  match cs with
  | '0' :: 'x' :: rest => naturalIn? 16 rest
  | '0' :: 'o' :: rest => naturalIn? 8 rest
  | '0' :: 'b' :: rest => naturalIn? 2 rest
  | cs => naturalIn? 10 cs

/-- Whether a scalar has digits after a leading zero, which is no number. -/
def hasLeadingZero (cs : List Char) : Bool :=
  let body := ((after? '-' cs).orElse fun _ => after? '+' cs).getD cs
  decide (1 < body.length) && body.head? == some '0' && (body.drop 1).all Char.isDigit

/-- The integer that a plain scalar stands for. -/
def integer? (cs : List Char) : Option Int :=
  if hasLeadingZero cs then none
  else
    match cs with
    | '-' :: rest => (natural? rest).map fun n => -(n : Int)
    | '+' :: rest => (natural? rest).map Int.ofNat
    | cs => (natural? cs).map Int.ofNat

/-- One past the greatest integer that a plain scalar can stand for, `2 ^ 128`. The
least one is `-2 ^ 127`. -/
def naturalBound : Nat := 1 <<< 128

/-- The finite floating-point number that a plain scalar stands for. -/
def float? (cs : List Char) : Option Binary64 :=
  if hasLeadingZero cs then none
  else
    let body := (after? '+' cs).getD cs
    if (after? '+' cs).isSome && (body.head? == some '+' || body.head? == some '-') then none
    else if body = ".inf".toList ∨ body = ".Inf".toList ∨ body = ".INF".toList then
      some (Binary64.infinity false)
    else if cs = "-.inf".toList ∨ cs = "-.Inf".toList ∨ cs = "-.INF".toList then
      some (Binary64.infinity true)
    else if cs = ".nan".toList ∨ cs = ".NaN".toList ∨ cs = ".NAN".toList then
      some (Binary64.nan false)
    else
      match Decimal.readFloat body with
      | .ok x => if x.isFinite then some x else none
      | .error _ => none

/-- The value of a plain scalar. An integer beyond 64 bits has none when it is still an
integer, and is a floating-point number or a text otherwise. -/
def plainValue? (s : String) : Option Value :=
  if isNullWord s then some .null
  else
    match boolWord? s with
    | some b => some (.bool b)
    | none =>
      match integer? s.toList with
      | some i =>
        if -(Decimal.integerBound : Int) ≤ i ∧ i < Decimal.integerBound then
          some (.int (Int64.ofInt i))
        else if 0 ≤ i ∧ i < Decimal.wordBound then some (.float (Binary64.ofInt i))
        else if -((naturalBound / 2 : Nat) : Int) ≤ i ∧ i < naturalBound then none
        else
          match float? s.toList with
          | some x => some (.float x)
          | none => some (.str s)
      | none =>
        match float? s.toList with
        | some x => some (.float x)
        | none => some (.str s)

end YamlScalar

instance : Scalar YamlScalar where
  isNull
    | .plain s => YamlScalar.isNullWord s
    | .quoted _ => false
  isVoid
    | .plain s => s.isEmpty
    | .quoted _ => false
  bool?
    | .plain s => YamlScalar.boolWord? s
    | .quoted _ => none
  text?
    | .plain s => some s
    | .quoted s => some s
  count?
    | .plain s =>
      (YamlScalar.integer? s.toList).bind fun i => if 0 ≤ i then some i.toNat else none
    | .quoted _ => none
  value?
    | .plain s => YamlScalar.plainValue? s
    | .quoted s => some (.str s)
  boxedNames := false
  positional := false

end FabricFootprint
