import FabricFootprint.Proofs.Extraction.Probes

/-!
FabricFootprint.Proofs.Extraction.Captures — filter tables that captures have built.

* `FilterTable.after` — the table after a sequence of captures. Every table of a run is one,
  since a run starts with the empty table and changes it by captures only.
* `FilterTable.Distinct` — no value is listed twice under one name. Captures keep it, as they
  keep `FilterTable.NoNull`, and so both hold of every such table.
-/

namespace FabricFootprint

/-- A capture of a field over records, under a name. -/
structure CaptureStep where
  name : String
  key : String
  records : List Record

namespace FilterTable

/-- The table after a sequence of captures. -/
def after (steps : List CaptureStep) : FilterTable :=
  steps.foldl (fun table step => table.capture step.name step.key step.records) empty

/-- The values under each name are distinct. -/
def Distinct (table : FilterTable) : Prop := ∀ name, (table.values name).Nodup

theorem distinct_empty : empty.Distinct := fun _ => List.nodup_nil

theorem Distinct.capture {table : FilterTable} (h : table.Distinct) (name key : String)
    (records : List Record) : (table.capture name key records).Distinct := by
  intro other
  rw [values_capture]
  split
  · exact nodup_distinct _
  · exact h other

/-- What holds of the empty table and is kept by every capture holds after
any sequence of them. -/
theorem after_induction {motive : FilterTable → Prop} (start : motive empty)
    (step : ∀ table name key records, motive table → motive (table.capture name key records))
    (steps : List CaptureStep) : motive (after steps) := by
  unfold after
  generalize empty = table at start
  induction steps generalizing table with
  | nil => exact start
  | cons s rest ih =>
    rw [List.foldl_cons]
    exact ih _ (step table s.name s.key s.records start)

theorem noNull_after (steps : List CaptureStep) : (after steps).NoNull :=
  after_induction noNull_empty (fun _ name key records h => h.capture name key records) steps

theorem distinct_after (steps : List CaptureStep) : (after steps).Distinct :=
  after_induction distinct_empty
    (fun _ name key records h => h.capture name key records) steps

end FilterTable

end FabricFootprint
