import FabricFootprint.Document.Rules

/-!
FabricFootprint.Proofs.Document.Node — typed values are read back from the
trees they are written as.

* `Rereads` — a document format gives back the texts, truth values, counts and values that
  it writes. It is asked of the values that `kept` holds of only, since not every format
  can write every number.
* `fields?_spelled` — a structured value has the members that were written, and no
  others, whichever of their names they were written under (`Spells`); a member is read
  back when its node is.
* `present` — the members that are written of a table of optional ones;
  `lookup_present` says which are found.
* `items?_ofItems`, `map?_ofMap` — lists and maps are read back when what is in them is.
* `exists_of_items?`, `exists_of_map?` — whatever is read is read from some node.
-/

namespace FabricFootprint

/-- A document format gives back what it writes, at least the values that `kept` holds of. A
text and a count do not read as absent. -/
structure Rereads {σ : Type} [Scalar σ] (write : Datum → σ) (kept : Value → Prop) : Prop where
  text : ∀ s, Scalar.text? (write (.value (.str s))) = some s
  bool : ∀ b, Scalar.bool? (write (.value (.bool b))) = some b
  count : ∀ n, Scalar.count? (write (.count n)) = some n
  value : ∀ v, kept v → Scalar.value? (write (.value v)) = some v
  text_present : ∀ s, Scalar.isNull (write (.value (.str s))) = false
  count_present : ∀ n, Scalar.isNull (write (.count n)) = false

namespace Node

/-! ## Lists of partial results -/

section Lists

variable {β γ : Type} {f : β → Option γ} {xs : List β}

theorem mapM_eq_some {g : β → γ} (h : ∀ x ∈ xs, f x = some (g x)) :
    xs.mapM f = some (xs.map g) := by
  induction xs with
  | nil => rfl
  | cons x rest ih =>
    rw [List.mapM_cons, h x List.mem_cons_self,
      ih fun y hy => h y (List.mem_cons_of_mem _ hy)]
    rfl

theorem exists_of_mapM {ys : List γ} (h : xs.mapM f = some ys) {y : γ} (hy : y ∈ ys) :
    ∃ x ∈ xs, f x = some y := by
  induction xs generalizing ys with
  | nil =>
    cases h
    exact nomatch hy
  | cons x rest ih =>
    rw [List.mapM_cons] at h
    obtain ⟨z, hz, h⟩ := Option.bind_eq_some_iff.1 h
    obtain ⟨zs, hzs, h⟩ := Option.bind_eq_some_iff.1 h
    cases h
    rcases List.mem_cons.1 hy with rfl | hy
    · exact ⟨x, List.mem_cons_self, hz⟩
    · obtain ⟨w, hw, hwy⟩ := ih hzs hy
      exact ⟨w, List.mem_cons_of_mem _ hw, hwy⟩

end Lists

/-! ## Trees under another kind of scalars -/

section Map

variable {σ τ : Type} (f : σ → τ)

theorem mapItems_eq (items : List (Node σ)) : mapItems f items = items.map (map f) := by
  induction items with
  | nil => rfl
  | cons n rest ih => rw [mapItems, ih, List.map_cons]

theorem mapMembers_eq (members : List (Option String × Node σ)) :
    mapMembers f members = members.map fun m => (m.1, map f m.2) := by
  induction members with
  | nil => rfl
  | cons m rest ih => rw [mapMembers, ih, List.map_cons]

theorem map_ofItems {α : Type} (f : Datum → σ) (encode : α → Node Datum) (items : List α) :
    (ofItems encode items).map f = .list (items.map fun x => (encode x).map f) := by
  rw [ofItems, map, mapItems_eq, List.map_map]
  rfl

theorem map_ofMembers (f : Datum → σ) (members : List (String × Node Datum)) :
    (ofMembers members).map f = .record (members.map fun m => (some m.1, m.2.map f)) := by
  rw [ofMembers, map, mapMembers_eq, List.map_map]
  rfl

end Map

/-! ## Structured values -/

section Fields

variable {σ α : Type} {write : Datum → σ} {members : List (String × Node Datum)}
  {decode : Node σ → Option α} {name : String}

/-- The members that were written, in the scalars of the format. -/
def written (write : Datum → σ) (members : List (String × Node Datum)) : Fields σ :=
  fun name => (members.lookup name).map (map write)

theorem written_cons (m : String × Node Datum) (name : String) :
    written write (m :: members) name =
      if name == m.1 then some (m.2.map write) else written write members name := by
  rw [written, List.lookup_cons]
  cases name == m.1 <;> rfl

theorem written_eq_none (h : ∀ m ∈ members, m.1 ≠ name) :
    written write members name = none := by
  have habsent : members.lookup name = none :=
    List.lookup_eq_none_iff.2 fun m hm => bne_iff_ne.2 (h m hm).symm
  rw [written, habsent, Option.map_none]

/-- A member that was written is read back when its node is. -/
theorem required_written {node : Node Datum} {a : α}
    (hfound : members.lookup name = some node) (hread : decode (node.map write) = some a) :
    (written write members).required name decode = some a := by
  rw [Fields.required, written, hfound]
  exact hread

theorem withDefault_written {node : Node Datum} {a absent : α}
    (hfound : members.lookup name = some node) (hread : decode (node.map write) = some a) :
    (written write members).withDefault name absent decode = some a := by
  rw [Fields.withDefault, written, hfound]
  exact hread

/-- An optional member is read back, written or not, when no node that is
written reads as absent. -/
theorem optional_written [Scalar σ] {encode : α → Node Datum} {a : Option α}
    (hfound : members.lookup name = a.map encode)
    (hpresent : ∀ a, ((encode a).map write).isNull = false)
    (hread : ∀ a, decode ((encode a).map write) = some a) :
    (written write members).optional name decode = some a := by
  rw [Fields.optional, written, hfound]
  cases a with
  | none => rfl
  | some a =>
    show (if ((encode a).map write).isNull then _ else _) = _
    rw [hpresent, hread]
    rfl

/-- Every member is written under a name that it goes by, and no other one goes by it. -/
def Spells (shape : List Member) (spell : String → String) : Prop :=
  ∀ m ∈ shape, ∀ name ∈ shape.map Member.name, m.isNamed (spell name) = (m.name == name)

/-- A member occurs once under the name that it is written under, or not at all. -/
theorem occurrences_spelled {spell : String → String}
    (hdistinct : (members.map Prod.fst).Nodup) {m : Member}
    (hspell : ∀ e ∈ members, m.isNamed (spell e.1) = (m.name == e.1)) :
    occurrences (members.map fun e => (some (spell e.1), e.2.map write)) m =
      (written write members m.name).toList := by
  induction members with
  | nil => rfl
  | cons e rest ih =>
    rw [List.map_cons, List.nodup_cons] at hdistinct
    have hnamed : m.isNamed (spell e.1) = (m.name == e.1) := hspell e List.mem_cons_self
    have hcons : occurrences ((e :: rest).map fun e => (some (spell e.1), e.2.map write)) m =
        (if m.name == e.1 then [e.2.map write] else []) ++
          occurrences (rest.map fun e => (some (spell e.1), e.2.map write)) m := by
      simp only [occurrences, List.map_cons, List.filterMap_cons, Option.any_some, hnamed]
      cases m.name == e.1 <;> rfl
    rw [hcons,
      ih hdistinct.2 fun other hother => hspell other (List.mem_cons_of_mem _ hother),
      written_cons]
    cases hname : m.name == e.1 with
    | false => rfl
    | true =>
      have hrest : written write rest m.name = none := by
        refine written_eq_none fun other hother heq => hdistinct.1 ?_
        rw [← eq_of_beq hname, ← heq]
        exact List.mem_map_of_mem hother
      rw [hrest]
      rfl

theorem find?_member {shape : List Member} (h : name ∈ shape.map Member.name) :
    ∃ m ∈ shape, m.name = name ∧ (shape.find? fun m => m.name == name) = some m := by
  obtain ⟨known, hknown, rfl⟩ := List.mem_map.1 h
  have hsome : (shape.find? fun m => m.name == known.name).isSome :=
    List.find?_isSome.2 ⟨known, hknown, beq_self_eq_true known.name⟩
  obtain ⟨m, hm⟩ := Option.isSome_iff_exists.1 hsome
  have hname := List.find?_some hm
  exact ⟨m, List.mem_of_find?_eq_some hm, eq_of_beq hname, hm⟩

/-- A structured value is read as the members that were written, under
whichever of their names. -/
theorem fields?_spelled [Scalar σ] {shape : List Member} {spell : String → String}
    (hspell : Spells shape spell) (hdistinct : (members.map Prod.fst).Nodup)
    (hknown : ∀ m ∈ members, m.1 ∈ shape.map Member.name) :
    ((ofMembers (members.map fun m => (spell m.1, m.2))).map write).fields? shape =
      some (written write members) := by
  have hocc :
      ∀ m ∈ shape, occurrences (members.map fun e => (some (spell e.1), e.2.map write)) m =
      (written write members m.name).toList :=
    fun m hm => occurrences_spelled hdistinct fun e he => hspell m hm e.1 (hknown e he)
  have hkeys : (members.map fun m => (some (spell m.1), m.2.map write)).all
      (fun e => e.1.isSome) = true := by
    simp
  have honce : shape.all (fun m => decide
      ((occurrences (members.map fun e => (some (spell e.1), e.2.map write)) m).length ≤ 1)) =
        true := by
    rw [List.all_eq_true]
    intro m hm
    rw [hocc m hm, decide_eq_true_iff]
    cases written write members m.name <;> simp
  rw [map_ofMembers, List.map_map, Function.comp_def, fields?, hkeys, honce, Bool.and_self,
    if_pos rfl]
  congr 1
  funext name
  by_cases hname : name ∈ shape.map Member.name
  · obtain ⟨m, hm, rfl, hfound⟩ := find?_member hname
    rw [hfound, Option.bind_some, hocc m hm, Option.head?_toList]
  · have hunknown : (shape.find? fun m => m.name == name) = none := by
      rw [List.find?_eq_none]
      exact fun m hm heq => hname (eq_of_beq heq ▸ List.mem_map_of_mem hm)
    rw [hunknown, Option.bind_none, written_eq_none]
    exact fun m hm heq => hname (heq ▸ hknown m hm)

/-- Members that go by one name each are written under it. -/
theorem fields?_ofMembers [Scalar σ] {shape : List Member}
    (hplain : ∀ m ∈ shape, m.legacy = none) (hdistinct : (members.map Prod.fst).Nodup)
    (hknown : ∀ m ∈ members, m.1 ∈ shape.map Member.name) :
    ((ofMembers members).map write).fields? shape = some (written write members) := by
  have hspell : Spells shape id := by
    intro m hm name _
    rw [Member.isNamed, hplain m hm]
    exact Bool.or_false _
  simpa using fields?_spelled hspell hdistinct hknown

/-! ### Optional members -/

/-- The members of a table that have a node. -/
def present (table : List (String × Option (Node Datum))) : List (String × Node Datum) :=
  table.filterMap fun m => m.2.map fun node => (m.1, node)

section Present

variable {table : List (String × Option (Node Datum))}

theorem map_fst_present_sublist (table : List (String × Option (Node Datum))) :
    ((present table).map Prod.fst).Sublist (table.map Prod.fst) := by
  induction table with
  | nil => exact .slnil
  | cons m rest ih =>
    obtain ⟨member, node⟩ := m
    cases node with
    | none => exact ih.cons member
    | some node => exact ih.cons_cons member

/-- A member of a table is found when it has a node; one without is found nowhere. -/
theorem lookup_present (hdistinct : (table.map Prod.fst).Nodup) {node : Option (Node Datum)}
    (hfound : table.lookup name = some node) : (present table).lookup name = node := by
  induction table with
  | nil => exact nomatch hfound
  | cons m rest ih =>
    obtain ⟨member, optional⟩ := m
    rw [List.map_cons, List.nodup_cons] at hdistinct
    rw [List.lookup_cons] at hfound
    cases hname : name == member with
    | false =>
      rw [hname] at hfound
      rw [← ih hdistinct.2 hfound]
      cases optional with
      | none => rfl
      | some first =>
        refine List.lookup_cons.trans ?_
        rw [hname]
        rfl
    | true =>
      rw [hname] at hfound
      obtain rfl : optional = node := Option.some.inj hfound
      cases optional with
      | none =>
        refine List.lookup_eq_none_iff.2 fun other hother =>
          bne_iff_ne.2 fun heq => hdistinct.1 ?_
        have hmem := (map_fst_present_sublist rest).subset (List.mem_map_of_mem hother)
        rwa [← eq_of_beq hname, heq]
      | some first =>
        refine List.lookup_cons.trans ?_
        rw [hname]

theorem nodup_present (hdistinct : (table.map Prod.fst).Nodup) :
    ((present table).map Prod.fst).Nodup :=
  (map_fst_present_sublist table).nodup hdistinct

theorem known_present {shape : List Member}
    (hknown : ∀ name ∈ table.map Prod.fst, name ∈ shape.map Member.name) :
    ∀ m ∈ present table, m.1 ∈ shape.map Member.name :=
  fun _ hm => hknown _ ((map_fst_present_sublist table).subset (List.mem_map_of_mem hm))

end Present

end Fields

/-! ## Lists and maps -/

section Collections

variable {σ α : Type} [Scalar σ] {write : Datum → σ} {decode : Node σ → Option α}
  {encode : α → Node Datum}

/-- A list is read back when its items are. -/
theorem items?_ofItems {items : List α}
    (h : ∀ x ∈ items, decode ((encode x).map write) = some x) :
    ((ofItems encode items).map write).items? decode = some items := by
  rw [map_ofItems, items?, List.mapM_map]
  exact (mapM_eq_some (g := id) h).trans (by rw [List.map_id])

/-- The same of items that are written differently at different positions. -/
theorem items?_mapIdx {encode : Nat → α → Node Datum} {items : List α}
    (h : ∀ i, ∀ x ∈ items, decode ((encode i x).map write) = some x) :
    ((Node.list (items.mapIdx encode)).map write).items? decode = some items := by
  rw [map, mapItems_eq, items?]
  induction items generalizing encode with
  | nil => rfl
  | cons x rest ih =>
    have hrest := ih fun i y hy => h (i + 1) y (List.mem_cons_of_mem _ hy)
    rw [List.mapIdx_cons, List.map_cons, List.mapM_cons, h 0 x List.mem_cons_self, hrest]
    rfl

/-- A map is read back when its values are. -/
theorem map?_ofMap {m : FieldMap α}
    (h : ∀ name v, m.get? name = some v → decode ((encode v).map write) = some v) :
    ((ofMap encode m).map write).map? decode = some m := by
  have hentry : ∀ e ∈ m.entries, (decode ((encode e.2).map write)).map (fun v => (e.1, v)) =
      some e := by
    rintro ⟨name, v⟩ he
    rw [h name v (FieldMap.mem_entries_iff.1 he), Option.map_some]
  have hentries : m.entries.mapM (fun e => (decode ((encode e.2).map write)).map fun v =>
      (e.1, v)) = some m.entries := by
    rw [mapM_eq_some (g := id) hentry, List.map_id]
  rw [ofMap, map_ofMembers, List.map_map, map?, List.mapM_map]
  exact (congrArg (Option.map FieldMap.ofList) hentries).trans
    (congrArg some (FieldMap.ofList_entries m))

end Collections

/-! ## Where read values come from -/

section Sources

variable {σ α : Type} [Scalar σ] {decode : Node σ → Option α} {node : Node σ}

theorem exists_of_items? {items : List α} (h : node.items? decode = some items) {x : α}
    (hx : x ∈ items) : ∃ n, decode n = some x := by
  cases node with
  | scalar s =>
    rw [items?] at h
    split at h
    · cases h
      exact nomatch hx
    · exact nomatch h
  | record members => exact nomatch h
  | list nodes =>
    obtain ⟨n, -, hn⟩ := exists_of_mapM h hx
    exact ⟨n, hn⟩

theorem exists_of_map? {m : FieldMap α} (h : node.map? decode = some m)
    {name : String} {v : α} (hv : m.get? name = some v) : ∃ n, decode n = some v := by
  cases node with
  | scalar s =>
    rw [map?] at h
    split at h
    · cases h
      exact nomatch hv
    · exact nomatch h
  | list items => exact nomatch h
  | record members =>
    obtain ⟨entries, hentries, rfl⟩ := Option.map_eq_some_iff.1 h
    rw [FieldMap.get?_ofList] at hv
    have hmem : (name, v) ∈ entries := List.mem_reverse.1 (mem_of_lookupEntry hv)
    obtain ⟨member, -, hmember⟩ := exists_of_mapM hentries hmem
    obtain ⟨key, -, hdecode⟩ := Option.bind_eq_some_iff.1 hmember
    obtain ⟨w, hw, heq⟩ := Option.map_eq_some_iff.1 hdecode
    cases heq
    exact ⟨member.2, hw⟩

end Sources

end Node

/-! ## Scalars -/

/-- Trees that are about to be written give back all values. -/
theorem rereads_datum (kept : Value → Prop) : Rereads (fun d : Datum => d) kept where
  text _ := rfl
  bool _ := rfl
  count _ := rfl
  value _ _ := rfl
  text_present _ := rfl
  count_present _ := rfl

namespace Rereads

variable {σ : Type} [Scalar σ] {write : Datum → σ} {kept : Value → Prop}
  (h : Rereads write kept)
include h

theorem text?_ofText (s : String) : ((Node.ofText s).map write).text? = some s := h.text s

theorem bool?_ofBool (b : Bool) : ((Node.ofBool b).map write).bool? = some b := h.bool b

theorem count?_ofCount (n : Nat) : ((Node.ofCount n).map write).count? = some n := h.count n

theorem isNull_ofText (s : String) : ((Node.ofText s).map write).isNull = false :=
  h.text_present s

/-- A name from a table is read back from its text. -/
theorem named?_ofText {α : Type} {ofName? : String → Option α} {name : String} {a : α}
    (hname : ofName? name = some a) :
    ((Node.ofText name).map write).named? ofName? = some a :=
  Option.bind_eq_some_iff.2 ⟨name, h.text name, hname⟩

theorem isNull_ofCount (n : Nat) : ((Node.ofCount n).map write).isNull = false :=
  h.count_present n

theorem texts?_ofTexts (texts : List String) :
    ((Node.ofTexts texts).map write).texts? = some texts :=
  Node.items?_ofItems fun s _ => h.text s

/-- A record is read back when its values are among those that the format gives back. -/
theorem values?_ofRecord {record : Record}
    (hkept : ∀ name v, record.get? name = some v → kept v) :
    ((Node.ofRecord record).map write).map? Node.value? = some record :=
  Node.map?_ofMap fun name v hv => h.value v (hkept name v hv)

end Rereads

end FabricFootprint
