import FabricFootprint.Value

/-!
FabricFootprint.Document.Node — document trees, and how typed values are read
from and written to them.

* `Node σ` — a tree of lists and records over scalars of kind `σ`. A record key is `none` when
  it is grammatical but denotes no text; a record may repeat a key.
* `Scalar σ` — what the scalars of one document format can stand for. One decoder of a type
  serves every format through it.
* `Datum` — the scalars of trees that are about to be written: a value or a count.
* `Node.fields?` — the members of a structured value, by name. A structured value is a record
  whose known members appear at most once (unknown members are skipped), or, in some formats,
  the list of its members in declaration order, of which trailing ones may be missing.
* `Node.items?`, `Node.map?`, `Node.named?` — lists, maps and names from a fixed table.
-/

namespace FabricFootprint

/-! ## Trees -/

/-- A document tree over scalars of kind `σ`. -/
inductive Node (σ : Type) where
  | scalar (s : σ)
  | list (items : List (Node σ))
  | record (members : List (Option String × Node σ))
  deriving Inhabited

namespace Node

variable {σ τ : Type}

mutual

def map (f : σ → τ) : Node σ → Node τ
  | .scalar s => .scalar (f s)
  | .list items => .list (mapItems f items)
  | .record members => .record (mapMembers f members)

/-- `map` on list items. -/
def mapItems (f : σ → τ) : List (Node σ) → List (Node τ)
  | [] => []
  | n :: rest => map f n :: mapItems f rest

/-- `map` on record members. -/
def mapMembers (f : σ → τ) : List (Option String × Node σ) → List (Option String × Node τ)
  | [] => []
  | (k, n) :: rest => (k, map f n) :: mapMembers f rest

end

end Node

/-! ## Scalars -/

/-- What the scalars of a document format can stand for. -/
class Scalar (σ : Type) where
  /-- The scalar stands for an absent optional part. -/
  isNull : σ → Bool
  /-- The scalar stands for an empty list or record. -/
  isVoid : σ → Bool
  bool? : σ → Option Bool
  text? : σ → Option String
  count? : σ → Option Nat
  value? : σ → Option Value
  /-- Whether a name may also be written as a record with this name as its
  key and null in it. -/
  boxedNames : Bool
  /-- Whether a structured value may also be written as the list of its members. -/
  positional : Bool

/-- A scalar of a tree that is to be written. -/
inductive Datum where
  | value (v : Value)
  | count (n : Nat)
  deriving DecidableEq, Inhabited

instance : Scalar Datum where
  isNull
    | .value .null => true
    | _ => false
  isVoid _ := false
  bool?
    | .value (.bool b) => some b
    | _ => none
  text?
    | .value (.str s) => some s
    | _ => none
  count?
    | .count n => some n
    | _ => none
  value?
    | .value v => some v
    | .count _ => none
  boxedNames := true
  positional := true

namespace Node

variable {σ α : Type}

/-! ## Reading -/

section Reading

variable [Scalar σ]

def bool? : Node σ → Option Bool
  | .scalar s => Scalar.bool? s
  | _ => none

def text? : Node σ → Option String
  | .scalar s => Scalar.text? s
  | _ => none

def count? : Node σ → Option Nat
  | .scalar s => Scalar.count? s
  | _ => none

def value? : Node σ → Option Value
  | .scalar s => Scalar.value? s
  | _ => none

/-- Whether the node is a null scalar. -/
def isNull : Node σ → Bool
  | .scalar s => Scalar.isNull s
  | _ => false

/-- A list, each item read by `decode`. -/
def items? (decode : Node σ → Option α) : Node σ → Option (List α)
  | .list items => items.mapM decode
  | .scalar s => if Scalar.isVoid s then some [] else none
  | .record _ => none

/-- A map, each value read by `decode`; the last value of a repeated name is kept. -/
def map? (decode : Node σ → Option α) : Node σ → Option (FieldMap α)
  | .record members =>
    (members.mapM fun (m : Option String × Node σ) =>
      m.1.bind fun name => (decode m.2).map fun v => (name, v)).map FieldMap.ofList
  | .scalar s => if Scalar.isVoid s then some FieldMap.empty else none
  | .list _ => none

def named? (ofName? : String → Option α) : Node σ → Option α
  | .scalar s => (Scalar.text? s).bind ofName?
  | .record [(some name, content)] =>
    if Scalar.boxedNames σ && content.isNull then ofName? name else none
  | _ => none

/-- A member of a structured value: its name and, for some, a second name
it may be read under. -/
structure Member where
  name : String
  legacy : Option String

instance : Coe String Member := ⟨fun name => ⟨name, none⟩⟩

def Member.isNamed (m : Member) (key : String) : Bool := m.name == key || m.legacy == some key

/-- The members of a structured value, as a function of their names. -/
abbrev Fields (σ : Type) := String → Option (Node σ)

/-- The nodes that a record gives for a member. -/
def occurrences (members : List (Option String × Node σ)) (m : Member) : List (Node σ) :=
  members.filterMap fun e => if e.1.any m.isNamed then some e.2 else none

def fields? (shape : List Member) : Node σ → Option (Fields σ)
  | .record members =>
    if members.all (fun e => e.1.isSome) &&
        shape.all (fun m => decide ((occurrences members m).length ≤ 1)) then
      some fun name =>
        (shape.find? fun m => m.name == name).bind fun m => (occurrences members m).head?
    else none
  | .list items =>
    if Scalar.positional σ && decide (items.length ≤ shape.length) then
      some fun name => ((shape.map Member.name).zip items).lookup name
    else none
  | .scalar s => if Scalar.isVoid s then some fun _ => none else none

/-- A member that has to be there. -/
def Fields.required (fields : Fields σ) (name : String) (decode : Node σ → Option α) :
    Option α :=
  (fields name).bind decode

/-- A member that has a value of its own when it is missing. -/
def Fields.withDefault (fields : Fields σ) (name : String) (absent : α)
    (decode : Node σ → Option α) : Option α :=
  match fields name with
  | none => some absent
  | some node => decode node

/-- A member that may be missing or null. -/
def Fields.optional (fields : Fields σ) (name : String) (decode : Node σ → Option α) :
    Option (Option α) :=
  match fields name with
  | none => some none
  | some node => if node.isNull then some none else (decode node).map some

end Reading

/-! ## Writing -/

def ofValue (v : Value) : Node Datum := .scalar (.value v)

def ofText (s : String) : Node Datum := ofValue (.str s)

def ofBool (b : Bool) : Node Datum := ofValue (.bool b)

def ofCount (n : Nat) : Node Datum := .scalar (.count n)

def ofMembers (members : List (String × Node Datum)) : Node Datum :=
  .record (members.map fun m => (some m.1, m.2))

def ofItems (encode : α → Node Datum) (items : List α) : Node Datum :=
  .list (items.map encode)

/-- The tree of a map, in the order of its names. -/
def ofMap (encode : α → Node Datum) (m : FieldMap α) : Node Datum :=
  ofMembers (m.entries.map fun e => (e.1, encode e.2))

def ofRecord (record : Record) : Node Datum := ofMap ofValue record

/-- A member that is written only when it has a value. -/
def optionalMember (name : String) (encode : α → Node Datum) :
    Option α → List (String × Node Datum)
  | none => []
  | some a => [(name, encode a)]

end Node

end FabricFootprint
