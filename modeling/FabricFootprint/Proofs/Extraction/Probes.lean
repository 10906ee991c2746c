import FabricFootprint.Extraction.Probe
import Mathlib.Data.List.Forall2

/-!
FabricFootprint.Proofs.Extraction.Probes — what a probe is made of.

* `FilterTable.NoNull` — no captured value is null; a capture keeps it so.
* `suffixText` — a dot and the text of each value, in order.
* `Probe.ofValues` — the probe that has one value for each directive.
* `Probe.choices` — all choices of captured values, one for each directive.
  `Probe.foldl_extendAll_eq` says that going through the directives extends every probe by
  every choice, so the probes are those of all choices (`Probe.build_eq_map_choices`,
  `Probe.mem_build_iff`).
* `Probe.accepts_ofValues_iff` — such a probe accepts the records that have
  these values themselves.
-/

namespace FabricFootprint

/-! ## Captured values -/

namespace FilterTable

/-- No captured value is null. -/
def NoNull (table : FilterTable) : Prop := ∀ name, Value.null ∉ table.values name

theorem noNull_empty : empty.NoNull := fun _ => List.not_mem_nil

theorem NoNull.capture {table : FilterTable} (h : table.NoNull) (name key : String)
    (records : List Record) : (table.capture name key records).NoNull := by
  intro other hnull
  rw [values_capture] at hnull
  split at hnull
  · obtain ⟨record, -, hreading⟩ := List.mem_map.1 (mem_distinct.1 hnull)
    exact reading_ne_null key record hreading
  · exact h other hnull

end FilterTable

/-! ## Probes of values -/

/-- A dot and the text of each value, in order. -/
def suffixText : List Value → String
  | [] => ""
  | v :: rest => "." ++ v.text ++ suffixText rest

namespace Probe

/-- A probe extended by one value for each directive. -/
def extendBy (probe : Probe) (directives : List SearchDirective) (values : List Value) :
    Probe :=
  ⟨probe.pairs ++ List.zipWith (fun d v => (d.searchFor, v)) directives values,
    probe.suffix ++ suffixText values⟩

/-- The probe that has one value for each directive. -/
def ofValues (directives : List SearchDirective) (values : List Value) : Probe :=
  extendBy ⟨[], ""⟩ directives values

@[simp] theorem extendBy_nil (probe : Probe) : probe.extendBy [] [] = probe := by
  simp [extendBy, suffixText]

theorem extendBy_cons (probe : Probe) (d : SearchDirective)
    (directives : List SearchDirective) (v : Value) (values : List Value) :
    probe.extendBy (d :: directives) (v :: values) =
      (probe.extend d.searchFor v).extendBy directives values := by
  simp [extendBy, extend, suffixText, String.append_assoc]

@[simp] theorem suffix_ofValues (directives : List SearchDirective) (values : List Value) :
    (ofValues directives values).suffix = suffixText values := by
  simp [ofValues, extendBy]

/-! ## Choices of captured values -/

/-- All choices of one value for each directive, the first directive varying slowest. -/
def choices (filters : FilterTable) : List SearchDirective → List (List Value)
  | [] => [[]]
  | d :: directives => (filters.values d.searchFrom).flatMap fun v =>
      (choices filters directives).map fun values => v :: values

/-- One value captured for each directive. -/
abbrev Captured (filters : FilterTable) : List SearchDirective → List Value → Prop :=
  List.Forall₂ fun d v => v ∈ filters.values d.searchFrom

theorem mem_choices_iff {filters : FilterTable} {directives : List SearchDirective}
    {values : List Value} :
    values ∈ choices filters directives ↔ Captured filters directives values := by
  induction directives generalizing values with
  | nil => simp [choices, Captured, List.forall₂_nil_left_iff]
  | cons d directives ih =>
    simp only [choices, List.mem_flatMap, List.mem_map, ih]
    constructor
    · rintro ⟨v, hv, rest, hrest, rfl⟩
      exact .cons hv hrest
    · intro h
      cases h with
      | cons hv hrest => exact ⟨_, hv, _, hrest, rfl⟩

/-- Directives extend each probe by every choice of values. The induction is on the
directives; the probes so far vary with it. -/
theorem foldl_extendAll_eq (filters : FilterTable) (directives : List SearchDirective)
    (probes : List Probe) :
    directives.foldl (extendAll filters) probes =
      probes.flatMap fun probe =>
        (choices filters directives).map (probe.extendBy directives) := by
  induction directives generalizing probes with
  | nil => simp [choices]
  | cons d directives ih =>
    rw [List.foldl_cons, ih, extendAll, List.flatMap_assoc]
    refine List.flatMap_congr fun probe _ => ?_
    simp only [choices, List.flatMap_map, List.map_flatMap, List.map_map, Function.comp_def,
      extendBy_cons]

/-- The probes of some directives are those of all choices, in order. -/
theorem build_eq_map_choices {filters : FilterTable} {directives : List SearchDirective}
    (h : directives ≠ []) :
    build filters directives = (choices filters directives).map (ofValues directives) := by
  rw [build, if_neg (by simpa using h), foldl_extendAll_eq, List.flatMap_singleton]
  rfl

/-- The probes of some directives are those of every choice of captured values. -/
theorem mem_build_iff {filters : FilterTable} {directives : List SearchDirective}
    {probe : Probe} :
    probe ∈ build filters directives ↔
      directives ≠ [] ∧ ∃ values, Captured filters directives values ∧
        probe = ofValues directives values := by
  by_cases h : directives = []
  · simp [h, build]
  · rw [build_eq_map_choices h, List.mem_map]
    simp only [h, ne_eq, not_false_eq_true, true_and, mem_choices_iff, eq_comm]

/-- A probe compares the fields of its directives with values captured for them. -/
theorem exists_directive_of_mem_pairs {filters : FilterTable}
    {directives : List SearchDirective} {probe : Probe}
    (hprobe : probe ∈ build filters directives) {pair : String × Value}
    (hpair : pair ∈ probe.pairs) :
    ∃ d ∈ directives, pair.1 = d.searchFor ∧ pair.2 ∈ filters.values d.searchFrom := by
  obtain ⟨-, values, hcaptured, rfl⟩ := mem_build_iff.1 hprobe
  simp only [ofValues, extendBy, List.nil_append] at hpair
  clear hprobe
  induction hcaptured with
  | nil => exact nomatch hpair
  | @cons d v directives values hv _ ih =>
    rw [List.zipWith_cons_cons, List.mem_cons] at hpair
    rcases hpair with rfl | hpair
    · exact ⟨d, List.mem_cons_self, rfl, hv⟩
    · obtain ⟨other, hmem, hother⟩ := ih hpair
      exact ⟨other, List.mem_cons_of_mem _ hmem, hother⟩

/-- A probe of values accepts the records that have each of them in the
field of its directive. -/
theorem accepts_ofValues_iff (record : Record) :
    ∀ {directives : List SearchDirective} {values : List Value},
      directives.length = values.length →
        ((ofValues directives values).accepts record = true ↔
          List.Forall₂ (fun d v => record.get? d.searchFor = some v) directives values)
  | [], [], _ => by simp [ofValues, accepts]
  | d :: directives, v :: values, h => by
      have ih := accepts_ofValues_iff record (Nat.succ.inj h)
      simp only [ofValues, extendBy, accepts, List.nil_append] at ih
      simp only [ofValues, extendBy, accepts, List.nil_append, List.zipWith_cons_cons,
        List.all_cons, Bool.and_eq_true, beq_iff_eq, ih, List.forall₂_cons]

end Probe

end FabricFootprint
