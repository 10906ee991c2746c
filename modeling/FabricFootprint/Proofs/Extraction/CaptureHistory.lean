import FabricFootprint.Proofs.Extraction.Captures
import FabricFootprint.Proofs.Names

/-!
FabricFootprint.Proofs.Extraction.CaptureHistory — a filter table is the
history of its captures.

* `Reads` — what a record is captured with, said of the record itself: its
  value, or `not-exists`.
* `Lists` — a list of values lists what some records are captured with: without null, without
  repetitions, in the order in which the values are first met.
* `addUnseen` — one round of collecting: a value that is not in the list yet goes to its end.
  `Lists.concat` is the step for one record, `Lists.append` the run over more of them, and
  `distinct_eq_foldl` says that a capture is such a run.
* `FilterTable.IsHistory` — the captures of a table are those of some steps, one each and in
  order; under every name the last one counts.
* `isHistory_after` — the table after any steps is their history, and
  further steps only add to it.
-/

namespace FabricFootprint

/-! ## Readings -/

/-- What a record is captured with for a field: its value, unless that is missing or null. -/
inductive Reads (key : String) (record : Record) : Value → Prop where
  | present {v : Value} (value : record.get? key = some v) (notNull : v ≠ .null) :
      Reads key record v
  | absent (value : record.get? key = none) : Reads key record (.str "not-exists")
  | null (value : record.get? key = some .null) : Reads key record (.str "not-exists")

theorem reads_iff {key : String} {record : Record} {v : Value} :
    Reads key record v ↔ FilterTable.reading key record = v := by
  have hmissing (h : record.get? key = none ∨ record.get? key = some .null) :
      FilterTable.reading key record = .str "not-exists" := by
    rw [FilterTable.reading, Value.ofField?]
    rcases h with h | h <;> rw [h] <;> rfl
  have hpresent {w : Value} (value : record.get? key = some w) (notNull : w ≠ .null) :
      FilterTable.reading key record = w := by
    rw [FilterTable.reading, Value.ofField?_eq_some_iff.2 ⟨value, notNull⟩, Option.getD_some]
  constructor
  · intro h
    cases h with
    | present value notNull => exact hpresent value notNull
    | absent value => exact hmissing (.inl value)
    | null value => exact hmissing (.inr value)
  · rintro rfl
    cases hvalue : record.get? key with
    | none => exact hmissing (.inl hvalue) ▸ .absent hvalue
    | some w =>
      by_cases hnull : w = .null
      · subst hnull
        exact hmissing (.inr hvalue) ▸ .null hvalue
      · exact hpresent hvalue hnull ▸ .present hvalue hnull

/-! ## Collecting values -/

/-- The values are those that the records are captured with, each once and none of them null;
of two values the one that some record has before any record has the other comes first. -/
structure Lists (key : String) (records : List Record) (values : List Value) : Prop where
  noNull : Value.null ∉ values
  nodup : values.Nodup
  mem_iff : ∀ v, v ∈ values ↔ ∃ record ∈ records, Reads key record v
  ordered : values.Pairwise fun v w => ∃ before record after,
    records = before ++ record :: after ∧
    Reads key record v ∧ ∀ other ∈ before, ¬Reads key other w

/-- A value that is not in the list yet goes to its end. -/
def addUnseen (values : List Value) (v : Value) : List Value :=
  if v ∈ values then values else values ++ [v]

section Collecting

variable {key : String} {records : List Record} {values : List Value}

theorem lists_nil (key : String) : Lists key [] [] where
  noNull := List.not_mem_nil
  nodup := List.nodup_nil
  mem_iff v := by simp
  ordered := List.Pairwise.nil

/-- What orders two values goes on to do so when there are more records. -/
theorem Lists.ordered_append (h : Lists key records values) (more : List Record) :
    values.Pairwise fun v w => ∃ before record after,
      records ++ more = before ++ record :: after ∧ Reads key record v ∧
        ∀ other ∈ before, ¬Reads key other w := by
  refine h.ordered.imp fun {v w} hvw => ?_
  obtain ⟨before, record, after, rfl, hread, hbefore⟩ := hvw
  exact ⟨before, record, after ++ more, by simp, hread, hbefore⟩

/-- One more record: its value is in the list already, or is new and was met
by no record before. -/
theorem Lists.concat (h : Lists key records values) (record : Record) :
    Lists key (records ++ [record]) (addUnseen values (FilterTable.reading key record)) := by
  obtain ⟨v, hv⟩ : ∃ v, FilterTable.reading key record = v := ⟨_, rfl⟩
  have hmem (w : Value) :
      (∃ other ∈ records ++ [record], Reads key other w) ↔ w ∈ values ∨ w = v := by
    have hlast : Reads key record w ↔ w = v := by rw [reads_iff, hv, eq_comm]
    simp only [List.mem_append, List.mem_singleton, or_and_right, exists_or, exists_eq_left,
      ← h.mem_iff w, hlast]
  rw [hv, addUnseen]
  split
  · next hseen =>
    refine ⟨h.noNull, h.nodup, fun w => ?_, h.ordered_append [record]⟩
    have hold : w = v → w ∈ values := fun heq => heq ▸ hseen
    rw [hmem, or_iff_left_of_imp hold]
  · next hnew =>
    have hnone : ∀ other ∈ records, ¬Reads key other v :=
      fun other hother hreads => hnew ((h.mem_iff v).2 ⟨other, hother, hreads⟩)
    refine ⟨?_, ?_, fun w => ?_, ?_⟩
    · have hnull : v ≠ .null := hv ▸ FilterTable.reading_ne_null key record
      simpa [hnull.symm] using h.noNull
    · refine List.nodup_append.2 ⟨h.nodup, by simp, ?_⟩
      intro w hw x hx heq
      exact hnew (List.mem_singleton.1 hx ▸ heq ▸ hw)
    · rw [hmem, List.mem_append, List.mem_singleton]
    · refine List.pairwise_append.2 ⟨h.ordered_append [record],
        List.pairwise_singleton _ _, ?_⟩
      -- an old value has a record among the old ones, none of which has the new value
      intro w hw x hx
      obtain rfl := List.mem_singleton.1 hx
      obtain ⟨other, hother, hreads⟩ := (h.mem_iff w).1 hw
      obtain ⟨before, after, rfl⟩ := List.append_of_mem hother
      exact ⟨before, other, after ++ [record], by simp, hreads,
        fun earlier hearlier => hnone earlier (List.mem_append_left _ hearlier)⟩

/-- More records go on from the values of the records before. -/
theorem Lists.append (h : Lists key records values) (more : List Record) :
    Lists key (records ++ more)
      (more.foldl (fun values record => addUnseen values (FilterTable.reading key record))
        values) := by
  induction more generalizing records values with
  | nil => simpa using h
  | cons record rest ih => simpa using ih (h.concat record)

end Collecting

/-- A run adds the distinct values that are not in the list yet. -/
theorem foldl_addUnseen (seen values : List Value) :
    values.foldl addUnseen seen = seen ++ (distinct values).filter (· ∉ seen) := by
  induction values generalizing seen with
  | nil => simp [distinct]
  | cons v rest ih =>
    rw [List.foldl_cons, ih, addUnseen, distinct]
    by_cases hv : v ∈ seen
    · have hfilter : ((distinct rest).filter (· ≠ v)).filter (· ∉ seen) =
          (distinct rest).filter (· ∉ seen) := by
        rw [List.filter_filter]
        refine List.filter_congr fun w _ => ?_
        by_cases hw : w ∈ seen
        · simp [hw]
        · have hne : w ≠ v := fun heq => hw (heq ▸ hv)
          simp [hw, hne]
      rw [if_pos hv, List.filter_cons_of_neg (by simpa using hv), hfilter]
    · rw [if_neg hv, List.filter_cons_of_pos (by simpa using hv), List.filter_filter,
        List.append_assoc, List.singleton_append]
      congr 2
      refine List.filter_congr fun w _ => ?_
      simp [not_or]

theorem distinct_eq_foldl (values : List Value) :
    distinct values = values.foldl addUnseen [] := by
  rw [foldl_addUnseen]
  simp

/-- A capture lists what its records are captured with. -/
theorem lists_distinct (key : String) (records : List Record) :
    Lists key records (distinct (records.map (FilterTable.reading key))) := by
  rw [distinct_eq_foldl, List.foldl_map]
  exact (lists_nil key).append records

/-! ## Tables -/

/-- A capture is the one that a step makes. -/
structure Capture.MadeBy (c : Capture) (step : CaptureStep) : Prop where
  name : c.name = step.name
  lists : Lists step.key step.records c.values

/-- The table holds what some steps have captured, and nothing else. -/
structure FilterTable.IsHistory (table : FilterTable) (steps : List CaptureStep) : Prop where
  /-- Each step has made one capture, in order; later ones of its name leave it as it is. -/
  captures : List.Forall₂ Capture.MadeBy table.captures steps
  /-- Under a name there are the values of its last capture. -/
  latest : ∀ c, LastNamed Capture.name table.captures c → table.values c.name = c.values
  /-- There are none when nothing has been captured, or the last capture
  was over no records. -/
  values_eq_nil_iff : ∀ name, table.values name = [] ↔
    (∀ step ∈ steps, step.name ≠ name) ∨
      ∃ step, LastNamed CaptureStep.name steps step ∧ step.name = name ∧ step.records = []
  /-- The text that a value has in the suffix of a probe is its text as a
  part of a field name. -/
  segment : ∀ c ∈ table.captures, ∀ v ∈ c.values, ∃ segment, v.segment? = some segment ∧
    ∀ (probe : Probe) (field : String),
      (probe.extend field v).suffix = probe.suffix ++ "." ++ segment

namespace FilterTable

/-- The capture that a step makes. -/
def captureOf (step : CaptureStep) : Capture :=
  ⟨step.name, distinct (step.records.map (reading step.key))⟩

theorem captures_foldl (steps : List CaptureStep) (table : FilterTable) :
    (steps.foldl (fun table step => table.capture step.name step.key step.records)
      table).captures =
      table.captures ++ steps.map captureOf := by
  induction steps generalizing table with
  | nil => simp
  | cons step rest ih =>
    rw [List.foldl_cons, ih, List.map_cons, List.append_cons]
    rfl

/-- Each step adds its capture behind the earlier ones. -/
theorem captures_after (steps : List CaptureStep) :
    (after steps).captures = steps.map captureOf := captures_foldl steps empty

theorem madeBy_captureOf (step : CaptureStep) : (captureOf step).MadeBy step :=
  ⟨rfl, lists_distinct step.key step.records⟩

theorem values_captureOf_eq_nil_iff {step : CaptureStep} :
    (captureOf step).values = [] ↔ step.records = [] := by
  cases hrecords : step.records with
  | nil => simp [captureOf, hrecords, distinct]
  | cons record rest => simp [captureOf, hrecords, distinct]

theorem values_of_lastNamed {table : FilterTable} {c : Capture}
    (h : LastNamed Capture.name table.captures c) : table.values c.name = c.values := by
  rw [values, find?_reverse_named_eq_some_iff.2 ⟨h, rfl⟩]
  rfl

/-- The values under a name are those that the last step of the name has captured. -/
theorem values_after (steps : List CaptureStep) (name : String) :
    (after steps).values name =
      ((steps.reverse.find? fun step => step.name == name).map fun step =>
        (captureOf step).values).getD [] := by
  rw [values, captures_after, ← List.map_reverse, List.find?_map, Option.map_map]
  rfl

theorem values_after_eq_nil_iff {steps : List CaptureStep} {name : String} :
    (after steps).values name = [] ↔ (∀ step ∈ steps, step.name ≠ name) ∨
      ∃ step, LastNamed CaptureStep.name steps step ∧ step.name = name ∧
        step.records = [] := by
  rw [values_after]
  cases hfind : steps.reverse.find? fun step => step.name == name with
  | none =>
    rw [List.find?_eq_none] at hfind
    exact ⟨fun _ => .inl (by simpa using hfind), fun _ => rfl⟩
  | some step =>
    obtain ⟨hlast, hname⟩ := find?_reverse_named_eq_some_iff.1 hfind
    rw [Option.map_some, Option.getD_some, values_captureOf_eq_nil_iff]
    constructor
    · exact fun hrecords => .inr ⟨step, hlast, hname, hrecords⟩
    · rintro (hnone | ⟨other, hother, hothername, hrecords⟩)
      · exact absurd hname (hnone step hlast.mem)
      · exact hlast.unique hother (hname.trans hothername.symm) ▸ hrecords

/-- What is captured has a text as a part of a field name, and this is the
text that probes use. -/
theorem exists_segment_of_lists {key : String} {records : List Record} {values : List Value}
    (h : Lists key records values) {v : Value} (hv : v ∈ values) :
    ∃ segment, v.segment? = some segment ∧ ∀ (probe : Probe) (field : String),
      (probe.extend field v).suffix = probe.suffix ++ "." ++ segment := by
  have hnull : v ≠ .null := fun heq => h.noNull (heq ▸ hv)
  exact ⟨v.text, Value.segment?_eq_text hnull, fun _ _ => rfl⟩

/-- The table after any steps is their history, and further steps only add
captures behind it. -/
theorem isHistory_after (steps : List CaptureStep) :
    (after steps).IsHistory steps ∧
      ∀ later, (after steps).captures <+: (after (steps ++ later)).captures := by
  have hmade : List.Forall₂ Capture.MadeBy (after steps).captures steps := by
    rw [captures_after, List.forall₂_map_left_iff, List.forall₂_same]
    exact fun step _ => madeBy_captureOf step
  refine ⟨⟨hmade, fun c => values_of_lastNamed, fun name => values_after_eq_nil_iff, ?_⟩, ?_⟩
  · intro c hc v hv
    rw [captures_after] at hc
    obtain ⟨step, -, rfl⟩ := List.mem_map.1 hc
    exact exists_segment_of_lists (madeBy_captureOf step).lists hv
  · intro later
    rw [captures_after, captures_after, List.map_append]
    exact List.prefix_append _ _

/-- Numbers are told apart by their bits, and a missing value counts like the text for it; the
later capture of the name counts, and the earlier one is still there. -/
example :
    let port (v : Value) : Record := FieldMap.ofList [("mtu", v)]
    let first : CaptureStep :=
      ⟨"mtu", "mtu", [port (.int 0), port (.float ⟨0⟩), port (.int 0)]⟩
    let second : CaptureStep :=
      ⟨"mtu", "mtu", [port .null, port (.float ⟨9223372036854775808⟩), FieldMap.empty,
        port (.float ⟨0⟩), port (.str "not-exists")]⟩
    (after [first, second]).values "mtu" =
        [.str "not-exists", .float ⟨9223372036854775808⟩, .float ⟨0⟩] ∧
      (after [first, second]).captures.head? = some ⟨"mtu", [.int 0, .float ⟨0⟩]⟩ := by
  exact ⟨rfl, rfl⟩

end FilterTable

end FabricFootprint
