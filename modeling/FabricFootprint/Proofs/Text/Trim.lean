import FabricFootprint.Text.Blank
import Mathlib.Data.List.TakeWhile

/-!
FabricFootprint.Proofs.Text.Trim — what trimming takes away, and what it leaves.

* `trimChars_append` — blanks put before and after a list of characters make no difference.
* `trimChars_of_noBlank` — a list without blanks is left as it is.
-/

namespace FabricFootprint.Text

/-- No character is blank. -/
def NoBlank (cs : List Char) : Prop := ∀ c ∈ cs, isBlank c = false

/-- Every character is blank. -/
def AllBlank (cs : List Char) : Prop := ∀ c ∈ cs, isBlank c = true

theorem AllBlank.dropWhile_eq_nil {cs : List Char} (h : AllBlank cs) :
    cs.dropWhile isBlank = [] := by
  rw [List.dropWhile_eq_nil_iff]
  exact h

theorem AllBlank.reverse {cs : List Char} (h : AllBlank cs) : AllBlank cs.reverse :=
  fun c hc => h c (List.mem_reverse.1 hc)

theorem NoBlank.reverse {cs : List Char} (h : NoBlank cs) : NoBlank cs.reverse :=
  fun c hc => h c (List.mem_reverse.1 hc)

theorem NoBlank.dropWhile_eq {cs : List Char} (h : NoBlank cs) :
    cs.dropWhile isBlank = cs := by
  cases cs with
  | nil => rfl
  | cons c cs => simp [h c List.mem_cons_self]

theorem trimChars_of_noBlank {cs : List Char} (h : NoBlank cs) : trimChars cs = cs := by
  rw [trimChars, h.dropWhile_eq, h.reverse.dropWhile_eq, List.reverse_reverse]

/-- Blanks at the two ends make no difference. -/
theorem trimChars_append {before cs after : List Char} (hbefore : AllBlank before)
    (hafter : AllBlank after) : trimChars (before ++ cs ++ after) = trimChars cs := by
  rw [trimChars, trimChars, List.append_assoc, List.dropWhile_append_of_pos hbefore,
    List.dropWhile_append]
  by_cases hcs : (cs.dropWhile isBlank).isEmpty = true
  · rw [if_pos hcs, hafter.dropWhile_eq_nil, List.isEmpty_iff.1 hcs]
  · rw [if_neg hcs, List.reverse_append, List.dropWhile_append_of_pos hafter.reverse]

end FabricFootprint.Text
