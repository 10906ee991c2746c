/-!
FabricFootprint.Proofs.Names — names met one after another.

Every check for repeated names goes through a list with the names met before.
`FreshNames seen names` is what such a check establishes, and `freshNames_cons` is its step.
Among items with distinct names a look-up by name finds the one item of the name, in whatever
order they are (`find?_named_eq_some_iff`).

Where names may repeat, a look-up from the end finds the item that no item of the same name
follows (`LastNamed`, `find?_reverse_named_eq_some_iff`).
-/

namespace FabricFootprint

/-- The names are distinct, and none of them is in `seen`. -/
def FreshNames (seen names : List String) : Prop :=
  names.Nodup ∧ ∀ name ∈ names, name ∉ seen

theorem freshNames_nil (seen : List String) : FreshNames seen [] :=
  ⟨List.nodup_nil, fun _ h => nomatch h⟩

/-- The first name is new, and the others are new after it. -/
theorem freshNames_cons {seen names : List String} {name : String} :
    FreshNames seen (name :: names) ↔ name ∉ seen ∧ FreshNames (name :: seen) names := by
  refine ⟨?_, ?_⟩
  · rintro ⟨hnodup, hnew⟩
    obtain ⟨hnot, hrest⟩ := List.nodup_cons.1 hnodup
    refine ⟨hnew name List.mem_cons_self, hrest, fun other hother hseen => ?_⟩
    rcases List.mem_cons.1 hseen with rfl | hseen
    · exact hnot hother
    · exact hnew other (List.mem_cons_of_mem _ hother) hseen
  · intro hyp
    obtain ⟨hnew, hrest, hothers⟩ := hyp
    refine ⟨?_, ?_⟩
    · exact List.nodup_cons.2 ⟨fun h => hothers name h List.mem_cons_self, hrest⟩
    · intro other hother hseen
      rcases List.mem_cons.1 hother with rfl | hother
      · exact hnew hseen
      · exact hothers other hother (List.mem_cons_of_mem _ hseen)

/-- With no name met before, to be new is to be distinct. -/
theorem freshNames_nil_iff {names : List String} : FreshNames [] names ↔ names.Nodup :=
  ⟨fun h => h.1, fun h => ⟨h, fun _ _ hseen => nomatch hseen⟩⟩

theorem find?_named_eq_some_iff {α : Type} {name : α → String} {items : List α}
    {n : String} {x : α} (h : (items.map name).Nodup) :
    (items.find? fun y => name y == n) = some x ↔ x ∈ items ∧ name x = n := by
  refine ⟨?_, ?_⟩
  · intro hfind
    exact ⟨List.mem_of_find?_eq_some hfind, by simpa using List.find?_some hfind⟩
  · rintro ⟨hx, rfl⟩
    induction items with
    | nil => exact nomatch hx
    | cons y rest ih =>
      rw [List.map_cons, List.nodup_cons] at h
      rcases List.mem_cons.1 hx with rfl | hx
      · rw [List.find?_cons_of_pos (by simp)]
      · have hne : name y ≠ name x := fun heq => h.1 (heq ▸ List.mem_map_of_mem hx)
        rw [List.find?_cons_of_neg (by simpa using hne)]
        exact ih h.2 hx

/-! ## Repeated names -/

section LastNamed

variable {α : Type} {name : α → String} {items : List α}

/-- The item is there, and no item of its name comes after it. -/
def LastNamed (name : α → String) (items : List α) (x : α) : Prop :=
  ∃ before after, items = before ++ x :: after ∧ ∀ y ∈ after, name y ≠ name x

theorem LastNamed.mem {x : α} (h : LastNamed name items x) : x ∈ items := by
  obtain ⟨before, after, rfl, -⟩ := h
  simp

theorem find?_reverse_named_eq_some_iff {n : String} {x : α} :
    (items.reverse.find? fun y => name y == n) = some x ↔
      LastNamed name items x ∧ name x = n := by
  rw [List.find?_eq_some_iff_append]
  constructor
  · rintro ⟨hname, after, before, hsplit, hafter⟩
    obtain rfl : name x = n := by simpa using hname
    refine ⟨⟨before.reverse, after.reverse, ?_, ?_⟩, rfl⟩
    · rw [← List.reverse_reverse items, hsplit]
      simp
    · simpa using hafter
  · rintro ⟨⟨before, after, rfl, hafter⟩, rfl⟩
    exact ⟨by simp, after.reverse, before.reverse, by simp, by simpa using hafter⟩

/-- One item at most is the last one of a name. -/
theorem LastNamed.unique {x y : α} (hx : LastNamed name items x) (hy : LastNamed name items y)
    (hname : name x = name y) : x = y := by
  have hxs := find?_reverse_named_eq_some_iff.2 ⟨hx, hname⟩
  have hys := find?_reverse_named_eq_some_iff.2 ⟨hy, rfl⟩
  exact Option.some.inj (hxs.symm.trans hys)

end LastNamed

end FabricFootprint
