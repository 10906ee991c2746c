import FabricFootprint.Value

/-!
FabricFootprint.Extraction.Filters — values captured for split-search.

* `distinct` — a list without repetitions, in the order of first occurrence.
* `FilterTable` — the captures of one extraction, oldest first. A capture holds the distinct
  values of a field over some records; a record without the field, or with null in it, counts
  with the text `not-exists`, so no captured value is null.
* `FilterTable.values` — the values of the latest capture under a name.
-/

namespace FabricFootprint

/-- A list without repetitions, in the order of first occurrence. -/
def distinct {α : Type} [DecidableEq α] : List α → List α
  | [] => []
  | x :: xs => x :: (distinct xs).filter (· ≠ x)

theorem mem_distinct {α : Type} [DecidableEq α] {y : α} :
    ∀ {xs : List α}, y ∈ distinct xs ↔ y ∈ xs
  | [] => by simp [distinct]
  | x :: xs => by
      by_cases h : y = x <;> simp [distinct, mem_distinct, h]

theorem nodup_distinct {α : Type} [DecidableEq α] : ∀ xs : List α, (distinct xs).Nodup
  | [] => by simp [distinct]
  | x :: xs => by
      refine List.nodup_cons.2 ⟨by simp, (nodup_distinct xs).filter _⟩

/-- The text that a missing value is captured as. -/
def notExists : String := "not-exists"

/-- The values captured under a name. -/
structure Capture where
  name : String
  values : List Value
  deriving DecidableEq

/-- The captures of one extraction, oldest first. -/
structure FilterTable where
  captures : List Capture
  deriving DecidableEq, Inhabited

namespace FilterTable

def empty : FilterTable := ⟨[]⟩

/-- The value that a record is captured with. -/
def reading (key : String) (record : Record) : Value :=
  (Value.ofField? record key).getD (.str notExists)

/-- Captures the distinct values of a field over records. -/
def capture (table : FilterTable) (name key : String) (records : List Record) : FilterTable :=
  ⟨table.captures ++ [⟨name, distinct (records.map (reading key))⟩]⟩

/-- The values of the latest capture under a name; none when there is no capture. -/
def values (table : FilterTable) (name : String) : List Value :=
  ((table.captures.reverse.find? fun c => c.name == name).map Capture.values).getD []

theorem values_capture (table : FilterTable) (name key other : String)
    (records : List Record) :
    (table.capture name key records).values other =
      if name = other then distinct (records.map (reading key)) else table.values other := by
  by_cases h : name = other <;> simp [values, capture, h]

theorem reading_ne_null (key : String) (record : Record) : reading key record ≠ .null := by
  unfold reading Value.ofField?
  cases h : (record.get? key).filter fun v => !v.isNull with
  | none => simp
  | some v =>
    obtain ⟨_, hv⟩ := Option.filter_eq_some_iff.1 h
    rintro rfl
    simp [Value.isNull] at hv

end FilterTable

end FabricFootprint
