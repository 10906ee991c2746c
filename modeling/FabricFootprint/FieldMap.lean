/-!
FabricFootprint.FieldMap — finite maps from names to values, the shape of every flat record.

* `FieldMap α` keeps its entries strictly sorted by name, in code-point order. The
  order is part of the type, so every listing of a map is sorted and two maps with the
  same look-ups are equal.
* `get?` is the view: each operation below has one equation that says what it does to `get?`.
* `insert` replaces the value of a name that is already present, so the last write wins;
  `ofList` inserts from left to right.

Main statements: `get?_insert`, `get?_erase`, `get?_filterMap`, and `FieldMap.ext_get?` (equal
look-ups make equal maps).
-/

namespace FabricFootprint

/-! ## Entry lists -/

/-- The first value listed under `name`. -/
def lookupEntry {α : Type} (name : String) : List (String × α) → Option α
  | [] => none
  | (n, v) :: rest => if n = name then some v else lookupEntry name rest

/-- Insertion into a sorted entry list; an entry of the same name is replaced. -/
def insertEntry {α : Type} (name : String) (value : α) : List (String × α) → List (String × α)
  | [] => [(name, value)]
  | (n, v) :: rest =>
    if name < n then (name, value) :: (n, v) :: rest
    else if name = n then (name, value) :: rest
    else (n, v) :: insertEntry name value rest

/-- Entries are sorted when their names strictly increase, which also rules
out repeated names. -/
abbrev SortedEntries {α : Type} (entries : List (String × α)) : Prop :=
  entries.Pairwise (fun a b => a.1 < b.1)

section EntryLists

variable {α β : Type}

theorem lookupEntry_eq_none {name : String} :
    ∀ {entries : List (String × α)}, (∀ e ∈ entries, e.1 ≠ name) →
      lookupEntry name entries = none
  | [], _ => rfl
  | (n, v) :: rest, h => by
      have hn : n ≠ name := h (n, v) List.mem_cons_self
      simp [lookupEntry, hn,
        lookupEntry_eq_none (fun e he => h e (List.mem_cons_of_mem _ he))]

theorem mem_of_lookupEntry {name : String} {value : α} :
    ∀ {entries : List (String × α)}, lookupEntry name entries = some value →
      (name, value) ∈ entries
  | [], h => by simp [lookupEntry] at h
  | (n, v) :: rest, h => by
      by_cases hn : n = name
      · simp_all [lookupEntry]
      · simp only [lookupEntry, hn, ↓reduceIte] at h
        exact List.mem_cons_of_mem _ (mem_of_lookupEntry h)

theorem lookupEntry_of_mem {name : String} {value : α} :
    ∀ {entries : List (String × α)}, SortedEntries entries → (name, value) ∈ entries →
      lookupEntry name entries = some value
  | [], _, h => by simp at h
  | (n, v) :: rest, hs, h => by
      rcases List.mem_cons.1 h with h | h
      · simp_all [lookupEntry]
      · have hlt : n < name := (List.pairwise_cons.1 hs).1 _ h
        have hn : n ≠ name := fun e => String.lt_irrefl name (e ▸ hlt)
        simp [lookupEntry, hn, lookupEntry_of_mem (List.pairwise_cons.1 hs).2 h]

theorem exists_lookupEntry_iff {name : String} {entries : List (String × α)} :
    (∃ value, lookupEntry name entries = some value) ↔ name ∈ entries.map Prod.fst := by
  induction entries with
  | nil => simp [lookupEntry]
  | cons e rest ih =>
    by_cases he : e.1 = name
    · simp [lookupEntry, he]
    · simpa [lookupEntry, he, Ne.symm he] using ih

theorem lookupEntry_append (name : String) (entries others : List (String × α)) :
    lookupEntry name (entries ++ others) =
      (lookupEntry name entries).or (lookupEntry name others) := by
  induction entries with
  | nil => rfl
  | cons e rest ih =>
    by_cases he : e.1 = name
    · simp [lookupEntry, he]
    · simpa [lookupEntry, he] using ih

/-- Among distinct names the order of the entries has no part in a look-up. -/
theorem lookupEntry_reverse {name : String} :
    ∀ {entries : List (String × α)}, SortedEntries entries →
      lookupEntry name entries.reverse = lookupEntry name entries
  | [], _ => rfl
  | (n, v) :: rest, hs => by
      obtain ⟨hhead, hrest⟩ := List.pairwise_cons.1 hs
      rw [List.reverse_cons, lookupEntry_append, lookupEntry_reverse hrest]
      by_cases hn : n = name
      · subst hn
        have hnone : lookupEntry n rest = none := lookupEntry_eq_none fun e he heq =>
          String.lt_irrefl n (heq ▸ hhead e he)
        simp [lookupEntry, hnone]
      · simp [lookupEntry, hn]

theorem mem_insertEntry {name : String} {value : α} {e : String × α} :
    ∀ {entries : List (String × α)}, e ∈ insertEntry name value entries →
      e = (name, value) ∨ e ∈ entries
  | [], h => by simpa [insertEntry] using h
  | (n, v) :: rest, h => by
      unfold insertEntry at h
      split at h
      · simpa using h
      · split at h
        · rcases List.mem_cons.1 h with h | h
          · exact Or.inl h
          · exact Or.inr (List.mem_cons_of_mem _ h)
        · rcases List.mem_cons.1 h with h | h
          · exact Or.inr (by simp [h])
          · rcases mem_insertEntry h with h | h
            · exact Or.inl h
            · exact Or.inr (List.mem_cons_of_mem _ h)

theorem SortedEntries.insertEntry {name : String} {value : α} :
    ∀ {entries : List (String × α)}, SortedEntries entries →
      SortedEntries (insertEntry name value entries)
  | [], _ => by simp [FabricFootprint.insertEntry]
  | (n, v) :: rest, hs => by
      have hrest := (List.pairwise_cons.1 hs).2
      have hhead := (List.pairwise_cons.1 hs).1
      unfold FabricFootprint.insertEntry
      split
      · next hlt =>
        refine List.pairwise_cons.2 ⟨fun e he => ?_, hs⟩
        rcases List.mem_cons.1 he with rfl | he
        · exact hlt
        · exact String.lt_trans hlt (hhead e he)
      · next hnlt =>
        split
        · next heq =>
          exact List.pairwise_cons.2 ⟨fun e he => heq ▸ hhead e he, hrest⟩
        · next hne =>
          refine List.pairwise_cons.2 ⟨fun e he => ?_, SortedEntries.insertEntry hrest⟩
          rcases mem_insertEntry he with rfl | he
          · have hle : n ≤ name := String.not_lt.1 hnlt
            rcases Decidable.em (n < name) with h | h
            · exact h
            · exact absurd (String.le_antisymm (String.not_lt.1 h) hle) hne
          · exact hhead e he

theorem lookupEntry_insertEntry (name other : String) (value : α) :
    ∀ entries : List (String × α), lookupEntry other (insertEntry name value entries) =
      if name = other then some value else lookupEntry other entries
  | [] => by simp [insertEntry, lookupEntry]
  | (n, v) :: rest => by
      unfold insertEntry
      split
      · simp [lookupEntry]
      · split
        · next heq => subst heq; by_cases h : name = other <;> simp [lookupEntry, h]
        · next hne =>
          have ih := lookupEntry_insertEntry name other value rest
          by_cases h : n = other
          · subst h; simp [lookupEntry, hne]
          · simp [lookupEntry, h, ih]

theorem eq_of_lookupEntry_eq :
    ∀ {a b : List (String × α)}, SortedEntries a → SortedEntries b →
      (∀ name, lookupEntry name a = lookupEntry name b) → a = b
  | [], [], _, _, _ => rfl
  | [], (n, v) :: rest, _, _, h => by have := h n; simp [lookupEntry] at this
  | (n, v) :: rest, [], _, _, h => by have := h n; simp [lookupEntry] at this
  | (n, v) :: rest, (n', v') :: rest', ha, hb, h => by
      have hn : n = n' := by
        have h₁ : (n, v) ∈ (n', v') :: rest' :=
          mem_of_lookupEntry (by rw [← h n]; simp [lookupEntry])
        have h₂ : (n', v') ∈ (n, v) :: rest :=
          mem_of_lookupEntry (by rw [h n']; simp [lookupEntry])
        rcases List.mem_cons.1 h₁ with h₁ | h₁
        · exact congrArg Prod.fst h₁
        · rcases List.mem_cons.1 h₂ with h₂ | h₂
          · exact (congrArg Prod.fst h₂).symm
          · exact absurd ((List.pairwise_cons.1 ha).1 _ h₂)
              (String.lt_asymm ((List.pairwise_cons.1 hb).1 _ h₁))
      subst hn
      have hv : v = v' := by have := h n; simpa [lookupEntry] using this
      subst hv
      refine congrArg _ (eq_of_lookupEntry_eq (List.pairwise_cons.1 ha).2
        (List.pairwise_cons.1 hb).2 fun name => ?_)
      by_cases hname : n = name
      · subst hname
        rw [lookupEntry_eq_none fun e he => ?_, lookupEntry_eq_none fun e he => ?_]
        · intro e'; exact String.lt_irrefl n (e' ▸ (List.pairwise_cons.1 hb).1 e he)
        · intro e'; exact String.lt_irrefl n (e' ▸ (List.pairwise_cons.1 ha).1 e he)
      · simpa [lookupEntry, hname] using h name

/-- Entries rewritten or dropped one by one, names kept. -/
def filterMapEntries (f : String → α → Option β) (entries : List (String × α)) :
    List (String × β) :=
  entries.filterMap fun e => (f e.1 e.2).map fun v => (e.1, v)

theorem name_mem_of_filterMapEntries {f : String → α → Option β} {entries : List (String × α)}
    {e : String × β} (h : e ∈ filterMapEntries f entries) : ∃ v, (e.1, v) ∈ entries := by
  obtain ⟨e', he', hf⟩ := List.mem_filterMap.1 h
  obtain ⟨v, _, rfl⟩ := Option.map_eq_some_iff.1 hf
  exact ⟨e'.2, he'⟩

theorem SortedEntries.filterMapEntries (f : String → α → Option β) :
    ∀ {entries : List (String × α)}, SortedEntries entries →
      SortedEntries (filterMapEntries f entries)
  | [], _ => by simp [FabricFootprint.filterMapEntries]
  | (n, v) :: rest, hs => by
      have ih := SortedEntries.filterMapEntries f (List.pairwise_cons.1 hs).2
      cases hf : f n v with
      | none => simpa [FabricFootprint.filterMapEntries, hf] using ih
      | some w =>
        have hcons : FabricFootprint.filterMapEntries f ((n, v) :: rest)
            = (n, w) :: FabricFootprint.filterMapEntries f rest := by
          simp [FabricFootprint.filterMapEntries, hf]
        rw [hcons]
        refine List.pairwise_cons.2 ⟨fun e he => ?_, ih⟩
        obtain ⟨v', hv'⟩ := name_mem_of_filterMapEntries he
        exact (List.pairwise_cons.1 hs).1 _ hv'

theorem lookupEntry_filterMapEntries (f : String → α → Option β) (name : String) :
    ∀ {entries : List (String × α)}, SortedEntries entries →
      lookupEntry name (filterMapEntries f entries) = (lookupEntry name entries).bind (f name)
  | [], _ => by simp [filterMapEntries, lookupEntry]
  | (n, v) :: rest, hs => by
      have ih := lookupEntry_filterMapEntries f name (List.pairwise_cons.1 hs).2
      by_cases hn : n = name
      · subst hn
        cases hf : f n v with
        | some w => simp [filterMapEntries, lookupEntry, hf]
        | none =>
          have hrest : filterMapEntries f ((n, v) :: rest) = filterMapEntries f rest := by
            simp [filterMapEntries, hf]
          rw [hrest, lookupEntry_eq_none fun e he => ?_]
          · simp [lookupEntry, hf]
          · obtain ⟨v', hv'⟩ := name_mem_of_filterMapEntries he
            intro e'
            exact String.lt_irrefl n (e' ▸ (List.pairwise_cons.1 hs).1 _ hv')
      · cases hf : f n v with
        | some w =>
          have hcons :
              filterMapEntries f ((n, v) :: rest) = (n, w) :: filterMapEntries f rest := by
            simp [filterMapEntries, hf]
          simp [hcons, lookupEntry, hn, ih]
        | none =>
          have hrest : filterMapEntries f ((n, v) :: rest) = filterMapEntries f rest := by
            simp [filterMapEntries, hf]
          simp [hrest, lookupEntry, hn, ih]

end EntryLists

/-! ## Maps -/

/-- A finite map from names to values, listed in strictly increasing order of names. -/
@[ext] structure FieldMap (α : Type) where
  entries : List (String × α)
  sorted : SortedEntries entries
  deriving DecidableEq

namespace FieldMap

variable {α β : Type}

def empty : FieldMap α := ⟨[], List.Pairwise.nil⟩

instance : Inhabited (FieldMap α) := ⟨empty⟩

instance : EmptyCollection (FieldMap α) := ⟨empty⟩

/-- The value of a name, if the map has one. -/
def get? (m : FieldMap α) (name : String) : Option α := lookupEntry name m.entries

/-- Whether the map has a value for the name. -/
def contains (m : FieldMap α) (name : String) : Bool := (m.get? name).isSome

/-- The map with `value` at `name`; an earlier value is replaced. -/
def insert (m : FieldMap α) (name : String) (value : α) : FieldMap α :=
  ⟨insertEntry name value m.entries, m.sorted.insertEntry⟩

/-- The map with a value at `name`, if there is one to insert. -/
def insertSome (m : FieldMap α) (name : String) : Option α → FieldMap α
  | none => m
  | some value => m.insert name value

/-- Entries inserted from left to right, so the last value of a repeated name is kept. -/
def ofList (entries : List (String × α)) : FieldMap α :=
  entries.foldl (fun m e => m.insert e.1 e.2) empty

/-- The entries that `f` keeps, with the values it gives them. -/
def filterMap (m : FieldMap α) (f : String → α → Option β) : FieldMap β :=
  ⟨filterMapEntries f m.entries, m.sorted.filterMapEntries f⟩

/-- The map without `name`. -/
def erase (m : FieldMap α) (name : String) : FieldMap α :=
  m.filterMap fun n v => if n = name then none else some v

def names (m : FieldMap α) : List String := m.entries.map Prod.fst

def values (m : FieldMap α) : List α := m.entries.map Prod.snd

def size (m : FieldMap α) : Nat := m.entries.length

def isEmpty (m : FieldMap α) : Bool := m.entries.isEmpty

/-! ## Look-up equations -/

@[simp] theorem get?_empty (name : String) : (empty : FieldMap α).get? name = none := rfl

theorem get?_insert (m : FieldMap α) (name other : String) (value : α) :
    (m.insert name value).get? other = if name = other then some value else m.get? other :=
  lookupEntry_insertEntry name other value m.entries

theorem get?_insertSome (m : FieldMap α) (name other : String) (value? : Option α) :
    (m.insertSome name value?).get? other =
      (if name = other then value? else none).or (m.get? other) := by
  cases value? with
  | none => simp [insertSome]
  | some value =>
    rw [insertSome, get?_insert]
    split <;> rfl

theorem get?_filterMap (m : FieldMap α) (f : String → α → Option β) (name : String) :
    (m.filterMap f).get? name = (m.get? name).bind (f name) :=
  lookupEntry_filterMapEntries f name m.sorted

theorem get?_erase (m : FieldMap α) (name other : String) :
    (m.erase name).get? other = if other = name then none else m.get? other := by
  rw [erase, get?_filterMap]
  by_cases h : other = name <;> cases m.get? other <;> simp [h]

theorem mem_entries_iff {m : FieldMap α} {name : String} {value : α} :
    (name, value) ∈ m.entries ↔ m.get? name = some value :=
  ⟨lookupEntry_of_mem m.sorted, mem_of_lookupEntry⟩

theorem mem_names_iff {m : FieldMap α} {name : String} :
    name ∈ m.names ↔ ∃ value, m.get? name = some value := by
  simp only [names, List.mem_map, Prod.exists, exists_and_right, exists_eq_right,
    mem_entries_iff]

theorem mem_values_iff {m : FieldMap α} {value : α} :
    value ∈ m.values ↔ ∃ name, m.get? name = some value := by
  simp only [values, List.mem_map, Prod.exists, exists_eq_right, mem_entries_iff]

/-- The last value listed under a name is kept. -/
theorem get?_ofList (entries : List (String × α)) (name : String) :
    (ofList entries).get? name = lookupEntry name entries.reverse := by
  rw [ofList, List.foldl_eq_foldr_reverse]
  induction entries.reverse with
  | nil => rfl
  | cons e rest ih => rw [List.foldr_cons, get?_insert, ih]; rfl

theorem mem_names_ofList {entries : List (String × α)} {name : String} :
    name ∈ (ofList entries).names ↔ name ∈ entries.map Prod.fst := by
  simp only [mem_names_iff, get?_ofList, exists_lookupEntry_iff, List.map_reverse,
    List.mem_reverse]

/-- Of values inserted for entries with distinct names each is found under its name; under any
other name the map is as it was. -/
theorem get?_foldl_insertSome (f : String → α → Option β) (name : String) :
    ∀ {entries : List (String × α)}, SortedEntries entries → ∀ m : FieldMap β,
      (entries.foldl (fun m e => m.insertSome e.1 (f e.1 e.2)) m).get? name =
        ((lookupEntry name entries).bind (f name)).or (m.get? name)
  | [], _, _ => rfl
  | (n, v) :: rest, hs, m => by
      obtain ⟨hhead, hrest⟩ := List.pairwise_cons.1 hs
      rw [List.foldl_cons, get?_foldl_insertSome f name hrest, get?_insertSome, lookupEntry]
      by_cases hn : n = name
      · subst hn
        have hnone : lookupEntry n rest = none := lookupEntry_eq_none fun e he heq =>
          String.lt_irrefl n (heq ▸ hhead e he)
        simp [hnone]
      · simp [hn]

/-- Maps with the same look-ups are equal. -/
theorem ext_get? {m n : FieldMap α} (h : ∀ name, m.get? name = n.get? name) : m = n :=
  FieldMap.ext (eq_of_lookupEntry_eq m.sorted n.sorted h)

/-- Inserting what `f` gives for the entries, one after the other, comes to the
entries that `f` keeps. -/
theorem foldl_insertSome (m : FieldMap α) (f : String → α → Option β) :
    m.entries.foldl (fun m e => m.insertSome e.1 (f e.1 e.2)) empty = m.filterMap f :=
  ext_get? fun name => by
    rw [get?_foldl_insertSome f name m.sorted, get?_filterMap, get?_empty, Option.or_none]
    rfl

/-- A map is what its entries make up. -/
theorem ofList_entries (m : FieldMap α) : ofList m.entries = m :=
  ext_get? fun name => by rw [get?_ofList, lookupEntry_reverse m.sorted]; rfl

theorem isEmpty_iff {m : FieldMap α} : m.isEmpty = true ↔ ∀ name, m.get? name = none := by
  constructor
  · intro h name
    have : m.entries = [] := List.isEmpty_iff.1 h
    simp [get?, this, lookupEntry]
  · intro h
    cases hm : m.entries with
    | nil => simp [isEmpty, hm]
    | cons e rest =>
      have := h e.1
      simp [get?, hm, lookupEntry] at this

end FieldMap

end FabricFootprint
