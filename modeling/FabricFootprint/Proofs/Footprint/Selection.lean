import FabricFootprint.Footprint
import FabricFootprint.Proofs.Diff.Pairing

/-!
FabricFootprint.Proofs.Footprint.Selection — which devices and keys a
selection of fields keeps.

A selection is a map of maps: an entry of a device replaces what an earlier entry of that
device gave, with all of its keys.

* `get?_ofList_map` — in a map of named items the last one of a name is the one that counts.
* `get?_selectNames` — the fields of a record that are selected.
* `Footprint.LastCovers` — the last entry of every device carries the
  keys of the earlier ones.
* `selectFields_keeps_last` — the selection has the keys of the last entry of every device,
  with the fields of the last entry of every key; nothing is lost exactly when the last
  entries cover the others.
* `selectFields_loses_key` — a key of an earlier entry of the same device is lost otherwise.
-/

namespace FabricFootprint

/-! ## Items by name -/

section Named

variable {α β : Type} {name : α → String} {items : List α}

theorem lastNamed?_eq_some_iff_lastNamed {n : String} {x : α} :
    lastNamed? name items n = some x ↔ LastNamed name items x ∧ name x = n :=
  find?_reverse_named_eq_some_iff

theorem exists_lastNamed (name : α → String) {x : α} (hx : x ∈ items) :
    ∃ y, LastNamed name items y ∧ name y = name x := by
  obtain ⟨y, hy⟩ := exists_lastNamed?_iff.2 (List.mem_map_of_mem (f := name) hx)
  exact ⟨y, lastNamed?_eq_some_iff_lastNamed.1 hy⟩

/-- A map of named items has the value of the last item of a name. -/
theorem get?_ofList_map (f : α → β) (n : String) :
    (FieldMap.ofList (items.map fun x => (name x, f x))).get? n =
      (lastNamed? name items n).map f := by
  rw [FieldMap.get?_ofList, ← List.map_reverse, lastNamed?]
  induction items.reverse with
  | nil => rfl
  | cons x rest ih => by_cases hx : name x = n <;> simp [lookupEntry, hx, ih]

end Named

/-! ## Selections -/

/-- The selected fields of a record are those that it has under the given names. -/
theorem get?_selectNames {names : List String} {data : Record} {field : String} {v : Value} :
    (selectNames names data).get? field = some v ↔
      field ∈ names ∧ data.get? field = some v := by
  have hsound {w : Value} (h : (selectNames names data).get? field = some w) :
      field ∈ names ∧ data.get? field = some w := by
    rw [selectNames, FieldMap.get?_ofList] at h
    have hmem := List.mem_reverse.1 (mem_of_lookupEntry h)
    obtain ⟨n, hn, hfield⟩ := List.mem_filterMap.1 hmem
    obtain ⟨w', hget, heq⟩ := Option.map_eq_some_iff.1 hfield
    cases heq
    exact ⟨hn, hget⟩
  refine ⟨hsound, ?_⟩
  rintro ⟨hfield, hget⟩
  have hname : field ∈ (selectNames names data).names := by
    rw [selectNames, FieldMap.mem_names_ofList]
    exact List.mem_map.2
      ⟨(field, v), List.mem_filterMap.2 ⟨field, hfield, by simp [hget]⟩, rfl⟩
  obtain ⟨w, hw⟩ := FieldMap.mem_names_iff.1 hname
  rw [hw, ← hget, (hsound hw).2]

/-- The fields that a selection has for a key of a device. -/
def selectedFields? (selection : FieldMap (FieldMap Record)) (device key : String) :
    Option Record :=
  (selection.get? device).bind fun keys => keys.get? key

theorem selectedFields?_selectFields (footprint : Footprint) (names : List String)
    (device key : String) :
    selectedFields? (selectFields footprint names) device key =
      (lastNamed? DeviceFootprint.device footprint device).bind fun d =>
        (lastNamed? DataEntry.key d.entries key).map fun e => selectNames names e.data := by
  rw [selectedFields?, selectFields, get?_ofList_map]
  cases lastNamed? DeviceFootprint.device footprint device with
  | none => rfl
  | some d => exact get?_ofList_map _ key

/-- Some entry of the footprint with the device's name has data for the key. -/
def Footprint.Carries (footprint : Footprint) (device key : String) : Prop :=
  ∃ d ∈ footprint, d.device = device ∧ ∃ e ∈ d.entries, e.key = key

section SelectFields

variable {footprint : Footprint} {names : List String}

theorem selectedFields?_eq_some_iff {device key : String} {fields : Record} :
    selectedFields? (selectFields footprint names) device key = some fields ↔
      ∃ d e, LastNamed DeviceFootprint.device footprint d ∧ d.device = device ∧
        LastNamed DataEntry.key d.entries e ∧ e.key = key ∧
        selectNames names e.data = fields := by
  simp only [selectedFields?_selectFields, Option.bind_eq_some_iff, Option.map_eq_some_iff,
    lastNamed?_eq_some_iff_lastNamed]
  constructor
  · rintro ⟨d, ⟨hd, hdevice⟩, e, ⟨he, hkey⟩, hfields⟩
    exact ⟨d, e, hd, hdevice, he, hkey, hfields⟩
  · rintro ⟨d, e, hd, hdevice, he, hkey, hfields⟩
    exact ⟨d, ⟨hd, hdevice⟩, e, ⟨he, hkey⟩, hfields⟩

theorem exists_selectedFields?_iff {device key : String} :
    (∃ fields, selectedFields? (selectFields footprint names) device key = some fields) ↔
      ∃ d, LastNamed DeviceFootprint.device footprint d ∧ d.device = device ∧
        ∃ e ∈ d.entries, e.key = key := by
  simp only [selectedFields?_eq_some_iff]
  constructor
  · rintro ⟨fields, d, e, hd, hdevice, he, hkey, -⟩
    exact ⟨d, hd, hdevice, e, he.mem, hkey⟩
  · rintro ⟨d, hd, hdevice, e, he, rfl⟩
    obtain ⟨last, hlast, hkey⟩ := exists_lastNamed DataEntry.key he
    exact ⟨_, d, last, hd, hdevice, hlast, hkey, rfl⟩

end SelectFields

/-- The last entry of every device carries the keys of all entries of the device, as it does
where no device is repeated. -/
def Footprint.LastCovers (footprint : Footprint) : Prop :=
  ∀ d ∈ footprint, ∀ last, LastNamed DeviceFootprint.device footprint last →
    last.device = d.device → ∀ e ∈ d.entries, ∃ kept ∈ last.entries, kept.key = e.key

/-- What a selection keeps of a footprint. A key occurs under a device exactly when the
last entry of the device carries it, and its fields are the requested ones that the last
entry of the key has there. No device or key is lost exactly when these last entries cover
the others; then a pair that one data entry alone has is selected with the requested
fields of this entry. -/
theorem selectFields_keeps_last (footprint : Footprint) (names : List String) :
    let selected := selectedFields? (selectFields footprint names)
    (∀ device key, (∃ fields, selected device key = some fields) ↔
      ∃ d, LastNamed DeviceFootprint.device footprint d ∧ d.device = device ∧
        ∃ e ∈ d.entries, e.key = key) ∧
    (∀ d e, LastNamed DeviceFootprint.device footprint d →
      LastNamed DataEntry.key d.entries e →
      ∃ fields, selected d.device e.key = some fields ∧
        ∀ field v, fields.get? field = some v ↔ field ∈ names ∧ e.data.get? field = some v) ∧
    ((∀ device key, (∃ fields, selected device key = some fields) ↔
      footprint.Carries device key) ↔
      footprint.LastCovers) ∧
    (footprint.LastCovers → ∀ d ∈ footprint, ∀ e ∈ d.entries,
      (∀ other ∈ footprint, other.device = d.device →
        ∀ same ∈ other.entries, same.key = e.key → same = e) →
      ∃ fields, selected d.device e.key = some fields ∧
        ∀ field v, fields.get? field = some v ↔
          field ∈ names ∧ e.data.get? field = some v) := by
  intro selected
  refine ⟨fun device key => exists_selectedFields?_iff, ?_, ⟨?_, ?_⟩, ?_⟩
  · intro d e hd he
    exact ⟨_, selectedFields?_eq_some_iff.2 ⟨d, e, hd, rfl, he, rfl, rfl⟩,
      fun field v => get?_selectNames⟩
  · intro hall d hd last hlast hdevice e he
    obtain ⟨d', hd', hdevice', kept, hkept, hkey⟩ :=
      exists_selectedFields?_iff.1 ((hall d.device e.key).2 ⟨d, hd, rfl, e, he, rfl⟩)
    obtain rfl : d' = last := hd'.unique hlast (hdevice'.trans hdevice.symm)
    exact ⟨kept, hkept, hkey⟩
  · intro hcovers device key
    refine exists_selectedFields?_iff.trans ⟨?_, ?_⟩
    · rintro ⟨d, hd, hdevice, e, he, hkey⟩
      exact ⟨d, hd.mem, hdevice, e, he, hkey⟩
    · rintro ⟨d, hd, rfl, e, he, rfl⟩
      obtain ⟨last, hlast, hdevice⟩ := exists_lastNamed DeviceFootprint.device hd
      exact ⟨last, hlast, hdevice, hcovers d hd last hlast hdevice e he⟩
  · intro hcovers d hd e he honly
    obtain ⟨last, hlast, hdevice⟩ := exists_lastNamed DeviceFootprint.device hd
    obtain ⟨kept, hkept, hkey⟩ := hcovers d hd last hlast hdevice e he
    obtain ⟨lastKept, hlastKept, hkey'⟩ := exists_lastNamed DataEntry.key hkept
    obtain rfl : lastKept = e :=
      honly last hlast.mem hdevice lastKept hlastKept.mem (hkey'.trans hkey)
    exact ⟨_, selectedFields?_eq_some_iff.2
        ⟨last, lastKept, hlast, hdevice, hlastKept, rfl, rfl⟩,
      fun field v => get?_selectNames⟩

/-- Two entries of one device: the selection has the key of the second one only, although the
footprint carries each of the two keys once. -/
theorem selectFields_loses_key :
    let entry (key : String) (vlan : Int64) : DataEntry :=
      ⟨key, FieldMap.ofList [("vlan", .int vlan)]⟩
    let footprint : Footprint := [⟨"leaf-1", [entry "100" 7]⟩, ⟨"leaf-1", [entry "200" 8]⟩]
    footprint.Carries "leaf-1" "100" ∧
      selectedFields? (selectFields footprint ["vlan"]) "leaf-1" "100" = none ∧
      selectedFields? (selectFields footprint ["vlan"]) "leaf-1" "200" =
        some (FieldMap.ofList [("vlan", .int 8)]) := by
  intro entry footprint
  exact ⟨⟨_, List.mem_cons_self, rfl, _, List.mem_cons_self, rfl⟩, by decide, by decide⟩

end FabricFootprint
