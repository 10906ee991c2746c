import FabricFootprint.Diff
import FabricFootprint.Proofs.Names
import Mathlib.Data.List.Forall2
import Mathlib.Data.List.Nodup

/-!
FabricFootprint.Proofs.Diff.Pairing — pairing the items of two lists by name.

* `SameNames` — names are distinct on each side, and both sides have the same ones.
* `lastNamed?_eq_some_iff` — among distinct names a look-up finds the one item of the name.
* `sameNames_iff_paired` — the four things a pairing checks hold exactly when
  the names are the same.
-/

namespace FabricFootprint

variable {α : Type} {name : α → String}

/-- Names are distinct on each side, and both sides have the same names. -/
structure SameNames (name : α → String) (items others : List α) : Prop where
  nodup : (items.map name).Nodup
  nodup_others : (others.map name).Nodup
  mem_iff : ∀ n, n ∈ items.map name ↔ n ∈ others.map name

theorem SameNames.symm {items others : List α} (h : SameNames name items others) :
    SameNames name others items where
  nodup := h.nodup_others
  nodup_others := h.nodup
  mem_iff n := (h.mem_iff n).symm

/-- The order of a side has no part in it. -/
theorem SameNames.of_perm {items others reordered : List α} (h : SameNames name items others)
    (hperm : (others.map name).Perm (reordered.map name)) :
    SameNames name items reordered where
  nodup := h.nodup
  nodup_others := hperm.nodup_iff.1 h.nodup_others
  mem_iff n := (h.mem_iff n).trans hperm.mem_iff

/-! ## Repetitions -/

/-- The induction is on the items; the names met before vary with it. -/
theorem repeatedNames_eq_nil_iff {seen : List String} {items : List α} :
    repeatedNames name seen items = [] ↔ FreshNames seen (items.map name) := by
  induction items generalizing seen with
  | nil => exact ⟨fun _ => freshNames_nil seen, fun _ => rfl⟩
  | cons x rest ih =>
    rw [repeatedNames, List.map_cons, freshNames_cons]
    split
    · next hseen =>
      have hmem : name x ∈ seen := by simpa using hseen
      exact ⟨fun h => (nomatch h), fun h => absurd hmem h.1⟩
    · next hseen =>
      have hnot : name x ∉ seen := by simpa using hseen
      rw [ih]
      exact ⟨fun h => ⟨hnot, h⟩, fun h => h.2⟩

/-- Nothing is left out of a list without repetitions. -/
theorem firstOfEach_of_fresh {seen : List String} {items : List α}
    (h : FreshNames seen (items.map name)) : firstOfEach name seen items = items := by
  induction items generalizing seen with
  | nil => rfl
  | cons x rest ih =>
    rw [List.map_cons, freshNames_cons] at h
    obtain ⟨hnot, hrest⟩ := h
    rw [firstOfEach, if_neg (by simpa using hnot), ih hrest]

theorem firstOfEach_of_nodup {items : List α} (h : (items.map name).Nodup) :
    firstOfEach name [] items = items :=
  firstOfEach_of_fresh (freshNames_nil_iff.2 h)

/-! ## Look-up -/

theorem lastNamed?_eq_some_iff {items : List α} {n : String} {x : α}
    (h : (items.map name).Nodup) :
    lastNamed? name items n = some x ↔ x ∈ items ∧ name x = n := by
  have hreverse : (items.reverse.map name).Nodup := by
    rw [List.map_reverse]
    exact List.nodup_reverse.2 h
  rw [lastNamed?, find?_named_eq_some_iff hreverse, List.mem_reverse]

theorem exists_lastNamed?_iff {items : List α} {n : String} :
    (∃ x, lastNamed? name items n = some x) ↔ n ∈ items.map name := by
  rw [← Option.isSome_iff_exists, lastNamed?, List.find?_isSome]
  simp

theorem unmatched_eq_nil_iff {items others : List α} :
    unmatched name items others = [] ↔ ∀ n ∈ items.map name, n ∈ others.map name := by
  rw [unmatched, List.filter_eq_nil_iff, List.forall_mem_map]
  simp

/-! ## Pairing -/

/-- The pairing finds no repetition on either side, a partner for every item, and
no item without one. -/
structure Paired (name : α → String) (items others : List α) : Prop where
  repeated_others : repeatedNames name [] others = []
  repeated : repeatedNames name [] items = []
  partner : ∀ x ∈ items, ∃ y, lastNamed? name others (name x) = some y
  unmatched : unmatched name others items = []

theorem sameNames_iff_paired {items others : List α} :
    SameNames name items others ↔ Paired name items others := by
  refine ⟨?_, ?_⟩
  · intro hyp
    obtain ⟨hnodup, hothers, hmem⟩ := hyp
    refine ⟨?_, ?_, fun x hx => ?_, ?_⟩
    · exact repeatedNames_eq_nil_iff.2 (freshNames_nil_iff.2 hothers)
    · exact repeatedNames_eq_nil_iff.2 (freshNames_nil_iff.2 hnodup)
    · exact exists_lastNamed?_iff.2 ((hmem _).1 (List.mem_map_of_mem hx))
    · exact unmatched_eq_nil_iff.2 fun n hn => (hmem n).2 hn
  · intro hyp
    obtain ⟨hothers, hnodup, hpartner, hunmatched⟩ := hyp
    refine ⟨?_, ?_, fun n => ⟨fun hn => ?_, unmatched_eq_nil_iff.1 hunmatched n⟩⟩
    · exact freshNames_nil_iff.1 (repeatedNames_eq_nil_iff.1 hnodup)
    · exact freshNames_nil_iff.1 (repeatedNames_eq_nil_iff.1 hothers)
    · obtain ⟨x, hx, rfl⟩ := List.mem_map.1 hn
      exact exists_lastNamed?_iff.1 (hpartner x hx)

/-! ## Lists side by side -/

section SideBySide

variable {β : Type} {R : α → β → Prop} {items : List α}

/-- What is kept of each item stands in the item's place. -/
theorem forall₂_filterMap {f : α → Option β}
    (h : ∀ x ∈ items, ∃ y, f x = some y ∧ R x y) :
    List.Forall₂ R items (items.filterMap f) := by
  induction items with
  | nil => exact .nil
  | cons x rest ih =>
    obtain ⟨y, hy, hR⟩ := h x List.mem_cons_self
    rw [List.filterMap_cons_some hy]
    exact .cons hR (ih fun z hz => h z (List.mem_cons_of_mem _ hz))

theorem exists_of_mem_left {others : List β} (h : List.Forall₂ R items others) {x : α}
    (hx : x ∈ items) : ∃ y ∈ others, R x y := by
  induction h with
  | nil => exact nomatch hx
  | cons hR _ ih =>
    rcases List.mem_cons.1 hx with rfl | hx
    · exact ⟨_, List.mem_cons_self, hR⟩
    · obtain ⟨y, hy, hxy⟩ := ih hx
      exact ⟨y, List.mem_cons_of_mem _ hy, hxy⟩

theorem exists_of_mem_right {others : List β} (h : List.Forall₂ R items others) {y : β}
    (hy : y ∈ others) : ∃ x ∈ items, R x y :=
  exists_of_mem_left h.flip hy

end SideBySide

end FabricFootprint
