import FabricFootprint.Extraction.Writes

/-!
FabricFootprint.Proofs.Extraction.WriteOrder — how far the order of writes matters.

* `writesOf` — the writes of one name, in order.
* `applyWrites_congr` — the data depend on the writes through the writes of each name alone.
  Writes of different names may be interleaved in any way.
* `applyWrites_comm` — in particular, two lists that write no common name can be exchanged.
-/

namespace FabricFootprint

/-- The writes of one name, in order. -/
def writesOf (name : String) (ws : List Write) : List Write := ws.filter fun w => w.1 == name

@[simp] theorem writesOf_nil (name : String) : writesOf name [] = [] := rfl

@[simp] theorem writesOf_append (name : String) (ws vs : List Write) :
    writesOf name (ws ++ vs) = writesOf name ws ++ writesOf name vs :=
  List.filter_append ..

theorem writesOf_flatMap {α : Type} (name : String) (xs : List α) (f : α → List Write) :
    writesOf name (xs.flatMap f) = xs.flatMap fun x => writesOf name (f x) :=
  List.filter_flatMap ..

theorem writesOf_eq_nil_iff {name : String} {ws : List Write} :
    writesOf name ws = [] ↔ ∀ w ∈ ws, w.1 ≠ name := by
  simp [writesOf, List.filter_eq_nil_iff]

theorem lastWrite?_writesOf (ws : List Write) (name : String) :
    lastWrite? (writesOf name ws) name = lastWrite? ws name := by
  rw [lastWrite?, lastWrite?, writesOf, ← List.filter_reverse, List.find?_filter]
  simp only [and_self, Bool.decide_eq_true]

/-- The data depend on the writes of each name alone. -/
theorem applyWrites_congr {ws vs : List Write}
    (h : ∀ name, writesOf name ws = writesOf name vs)
    (data : Record) : applyWrites data ws = applyWrites data vs := by
  refine FieldMap.ext_get? fun name => ?_
  rw [get?_applyWrites, get?_applyWrites, ← lastWrite?_writesOf ws,
    ← lastWrite?_writesOf vs, h]

/-- Writes that share no name can be exchanged. -/
theorem applyWrites_comm {ws vs : List Write} (h : ∀ w ∈ ws, ∀ v ∈ vs, w.1 ≠ v.1)
    (data : Record) :
    applyWrites (applyWrites data ws) vs = applyWrites (applyWrites data vs) ws := by
  rw [← applyWrites_append, ← applyWrites_append]
  refine applyWrites_congr (fun name => ?_) data
  rw [writesOf_append, writesOf_append]
  by_cases hws : ∃ w ∈ ws, w.1 = name
  · have hvs : writesOf name vs = [] := by
      obtain ⟨w, hw, hwname⟩ := hws
      rw [writesOf_eq_nil_iff]
      intro v hv hvname
      exact h w hw v hv (hwname.trans hvname.symm)
    rw [hvs, List.nil_append, List.append_nil]
  · have hnone : writesOf name ws = [] := by
      rw [writesOf_eq_nil_iff]
      intro w hw hwname
      exact hws ⟨w, hw, hwname⟩
    rw [hnone, List.nil_append, List.append_nil]

/-- Writes of other names leave a field as it is. -/
theorem get?_applyWrites_of_ne {ws : List Write} {name : String} (h : ∀ w ∈ ws, w.1 ≠ name)
    (data : Record) : (applyWrites data ws).get? name = data.get? name := by
  rw [get?_applyWrites, ← lastWrite?_writesOf, writesOf_eq_nil_iff.2 h]
  rfl

end FabricFootprint
