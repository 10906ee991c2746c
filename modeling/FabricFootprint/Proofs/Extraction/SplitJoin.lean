import FabricFootprint.Extraction.Writes
import FabricFootprint.Proofs.Extraction.Captures
import Mathlib.Data.List.Nodup

/-!
FabricFootprint.Proofs.Extraction.SplitJoin — split-search is a join of the records
with the captured values.

* `ownValues?` — what a record has itself in the searched fields, when each of these values
  has been captured for its directive.
* `SplitSearch.join` — one pass over the records, that looks at no
  combination of captured values.
* `Probe.filter_accepts_build` — of all combinations a record is accepted by that of its
  own values, if these are captured, and by no other. Captured values are distinct, so
  there is one such probe.
* `applyWrites_split_eq_join` — the search through all combinations leaves the data
  that the one pass leaves.
-/

namespace FabricFootprint

/-! ## One pass -/

/-- The values of a record in the fields of the directives, when each has been
captured for its directive. -/
def ownValues? (filters : FilterTable) : List SearchDirective → Record → Option (List Value)
  | [], _ => some []
  | d :: directives, record =>
    match record.get? d.searchFor with
    | none => none
    | some v =>
      if v ∈ filters.values d.searchFrom then
        (ownValues? filters directives record).map (v :: ·)
      else none

/-- One pass over the records: the keys of a record are copied under the names that end in its
own values, and a record without captured values is passed over. -/
def SplitSearch.join (filters : FilterTable) (entry : SplitSearch) (data : Record)
    (records : List Record) : Record :=
  records.foldl (fun data record =>
    match ownValues? filters entry.directives record with
    | none => data
    | some own =>
      applyWrites data (copies entry.keys entry.qualifier (suffixText own) record)) data

/-- A record has its own value, captured for it, in the field of each directive. -/
def Carries (filters : FilterTable) (record : Record) :
    List SearchDirective → List Value → Prop :=
  List.Forall₂ fun d v => record.get? d.searchFor = some v ∧ v ∈ filters.values d.searchFrom

theorem ownValues?_eq_some_iff {filters : FilterTable} {record : Record} :
    ∀ {directives : List SearchDirective} {own : List Value},
      ownValues? filters directives record = some own ↔ Carries filters record directives own
  | [], own => by
      rw [Carries, List.forall₂_nil_left_iff]
      exact ⟨fun h => (Option.some.inj h).symm, fun h => congrArg some h.symm⟩
  | d :: directives, own => by
      unfold ownValues?
      cases hfield : record.get? d.searchFor with
      | none =>
        refine ⟨fun h => (nomatch h), fun h => ?_⟩
        cases h with
        | cons hv _ => exact nomatch hfield.symm.trans hv.1
      | some v =>
        by_cases hcaptured : v ∈ filters.values d.searchFrom
        · simp only [hcaptured, if_true, Option.map_eq_some_iff, ownValues?_eq_some_iff]
          constructor
          · rintro ⟨rest, hrest, rfl⟩
            exact .cons ⟨hfield, hcaptured⟩ hrest
          · intro h
            cases h with
            | @cons _ w _ rest hw hrest =>
              obtain rfl : v = w := Option.some.inj (hfield.symm.trans hw.1)
              exact ⟨rest, hrest, rfl⟩
        · simp only [hcaptured, if_false]
          refine ⟨fun h => (nomatch h), fun h => ?_⟩
          cases h with
          | cons hw _ =>
            obtain rfl := Option.some.inj (hfield.symm.trans hw.1)
            exact absurd hw.2 hcaptured

/-- A record without a captured value in the field of some directive has none
to be searched for. -/
theorem ownValues?_eq_none {filters : FilterTable} {record : Record} {d : SearchDirective}
    (h : ∀ v ∈ filters.values d.searchFrom, record.get? d.searchFor ≠ some v) :
    ∀ {directives : List SearchDirective}, d ∈ directives →
      ownValues? filters directives record = none
  | first :: rest, hd => by
      unfold ownValues?
      rcases List.mem_cons.1 hd with rfl | hd
      · cases hfield : record.get? d.searchFor with
        | none => rfl
        | some v => exact if_neg fun hcaptured => h v hcaptured hfield
      · rw [ownValues?_eq_none h hd]
        cases record.get? first.searchFor <;> simp

/-! ## Probes that accept a record -/

/-- Of distinct values a field holds one, or none. -/
theorem filter_holds_eq {values : List Value} (h : values.Nodup) (record : Record)
    (field : String) :
    (values.filter fun v => record.get? field == some v) =
      match record.get? field with
      | none => []
      | some v => if v ∈ values then [v] else [] := by
  cases record.get? field with
  | none => simp
  | some w =>
    have hsame : (fun v => some w == some v) = fun v : Value => decide (v = w) := by
      funext v
      rw [Bool.eq_iff_iff, beq_iff_eq, decide_eq_true_iff, Option.some.injEq, eq_comm]
    show _ = if w ∈ values then [w] else []
    rw [hsame, List.filter_eq, h.count]
    split <;> rfl

namespace Probe

theorem accepts_extend (probe : Probe) (field : String) (v : Value) (record : Record) :
    (probe.extend field v).accepts record =
      (probe.accepts record && record.get? field == some v) := by
  simp [accepts, extend, List.all_append]

/-- Of the extended probes a record is accepted by those that extend a probe that accepts it,
by the value of its field. -/
theorem filter_accepts_extendAll (filters : FilterTable) (probes : List Probe)
    (d : SearchDirective) (record : Record) :
    ((extendAll filters probes d).filter fun probe => probe.accepts record) =
      (probes.filter fun probe => probe.accepts record).flatMap fun probe =>
        ((filters.values d.searchFrom).filter fun v => record.get? d.searchFor == some v).map
          (probe.extend d.searchFor) := by
  rw [extendAll, List.filter_flatMap]
  induction probes with
  | nil => rfl
  | cons probe rest ih =>
    rw [List.flatMap_cons, ih, List.filter_map]
    have haccepts : ((fun p => p.accepts record) ∘ fun v => probe.extend d.searchFor v) =
        fun v => probe.accepts record && record.get? d.searchFor == some v := by
      funext v
      exact accepts_extend probe d.searchFor v record
    rw [haccepts]
    cases hprobe : probe.accepts record with
    | true =>
      rw [List.filter_cons_of_pos (by simpa using hprobe), List.flatMap_cons]
      simp only [Bool.true_and]
    | false =>
      rw [List.filter_cons_of_neg (by simp [hprobe])]
      simp only [Bool.false_and, List.filter_false, List.map_nil, List.nil_append]

/-- The induction is on the directives; the probes so far vary with it. -/
theorem filter_accepts_foldl {filters : FilterTable} (h : filters.Distinct) (record : Record)
    (directives : List SearchDirective) (probes : List Probe) :
    ((directives.foldl (extendAll filters) probes).filter fun probe => probe.accepts record) =
      match ownValues? filters directives record with
      | none => []
      | some own =>
        (probes.filter fun probe => probe.accepts record).map fun probe =>
          probe.extendBy directives own := by
  induction directives generalizing probes with
  | nil => simp [ownValues?]
  | cons d directives ih =>
    rw [List.foldl_cons, ih, filter_accepts_extendAll, filter_holds_eq (h d.searchFrom),
      ownValues?]
    cases hfield : record.get? d.searchFor with
    | none => cases ownValues? filters directives record <;> simp
    | some v =>
      by_cases hcaptured : v ∈ filters.values d.searchFrom
      · cases ownValues? filters directives record with
        | none => simp [hcaptured]
        | some own =>
          simp only [hcaptured, if_true, Option.map_some, List.map_cons, List.map_nil,
            List.map_flatMap, extendBy_cons]
          exact (List.map_eq_flatMap ..).symm
      · cases ownValues? filters directives record <;> simp [hcaptured]

/-- A record is accepted by the probe of its own values, when these are
captured, and by no other. -/
theorem filter_accepts_build {filters : FilterTable} (h : filters.Distinct) (record : Record)
    {directives : List SearchDirective} (hsearches : directives ≠ []) :
    ((build filters directives).filter fun probe => probe.accepts record) =
      ((ownValues? filters directives record).map (ofValues directives)).toList := by
  have hempty : directives.isEmpty = false := by simpa using hsearches
  rw [build, hempty, if_neg Bool.false_ne_true, filter_accepts_foldl h]
  cases ownValues? filters directives record <;> rfl

end Probe

/-! ## The join -/

theorem applyWrites_flatMap (data : Record) (records : List Record)
    (f : Record → List Write) :
    applyWrites data (records.flatMap f) =
      records.foldl (fun data record => applyWrites data (f record)) data := by
  induction records generalizing data with
  | nil => rfl
  | cons record rest ih => rw [List.flatMap_cons, applyWrites_append, ih, List.foldl_cons]

/-- Split-search over captured values is a join. The search of every record through all
combinations of these values leaves the data that one pass over the records leaves, which
copies the keys of a record under its own values when they have been captured. A record is
accepted by one probe at most, so none of its fields is copied under two suffixes; and a
record that lacks a searched field, or has null in it, is accepted by none. -/
theorem applyWrites_split_eq_join (steps : List CaptureStep) (entry : SplitSearch)
    (hsearches : entry.directives ≠ []) :
    let filters := FilterTable.after steps
    (∀ records data, applyWrites data (entry.writes filters records) =
      entry.join filters data records) ∧
    ∀ record : Record,
      (∀ own, ownValues? filters entry.directives record = some own ↔
        Carries filters record entry.directives own) ∧
      ((Probe.build filters entry.directives).filter fun p => p.accepts record).length ≤ 1 ∧
      ∀ d ∈ entry.directives, Value.ofField? record d.searchFor = none →
        ∀ probe ∈ Probe.build filters entry.directives, probe.accepts record = false := by
  intro filters
  have hdistinct : filters.Distinct := FilterTable.distinct_after steps
  have haccepting (record : Record) :
      ((Probe.build filters entry.directives).filter fun p => p.accepts record) =
        ((ownValues? filters entry.directives record).map
          (Probe.ofValues entry.directives)).toList :=
    Probe.filter_accepts_build hdistinct record hsearches
  refine ⟨fun records data => ?_, fun record => ⟨fun own => ownValues?_eq_some_iff, ?_, ?_⟩⟩
  · rw [SplitSearch.writes, applyWrites_flatMap, SplitSearch.join]
    refine List.foldl_ext _ _ _ fun data record _ => ?_
    rw [haccepting]
    cases ownValues? filters entry.directives record <;> simp
  · rw [haccepting]
    cases ownValues? filters entry.directives record <;> simp
  · intro d hd hmissing
    have hfield (v : Value) (hv : v ∈ filters.values d.searchFrom) :
        record.get? d.searchFor ≠ some v := by
      intro hget
      have hnull : v ≠ .null :=
        fun heq => FilterTable.noNull_after steps d.searchFrom (heq ▸ hv)
      exact nomatch hmissing.symm.trans (Value.ofField?_eq_some_iff.2 ⟨hget, hnull⟩)
    have hnone := haccepting record
    rw [ownValues?_eq_none hfield hd, Option.map_none, Option.toList_none,
      List.filter_eq_nil_iff] at hnone
    exact fun probe hprobe => Bool.not_eq_true _ ▸ hnone probe hprobe

/-- Route targets are searched for by direction and address family. The first one is copied
under its own direction and family; the second one has no family, and stays out although a
record without a family has been captured. -/
theorem applyWrites_split_eq_join_targets :
    let target (members : List (String × String)) : Record :=
      FieldMap.ofList (members.map fun m => (m.1, Value.str m.2))
    let captured : List Record :=
      [target [("type", "export"), ("af", "ipv4")], target [("type", "import")]]
    let steps : List CaptureStep := [⟨"kind", "type", captured⟩, ⟨"family", "af", captured⟩]
    let entry : SplitSearch := ⟨["rtt"], [⟨"kind", "type"⟩, ⟨"family", "af"⟩], "evpn"⟩
    let first := target [("type", "export"), ("af", "ipv4"), ("rtt", "65000:1")]
    let second := target [("type", "import"), ("rtt", "65000:2")]
    entry.directives ≠ [] ∧
      applyWrites FieldMap.empty (entry.writes (FilterTable.after steps) [first, second]) =
        target [("evpn.rtt.export.ipv4", "65000:1")] ∧
      (FilterTable.after steps).values "family" = [.str "ipv4", .str notExists] ∧
      ∀ probe ∈ Probe.build (FilterTable.after steps) entry.directives,
        probe.accepts second = false := by
  intro target captured steps entry first second
  have hsearches : entry.directives ≠ [] := by simp [entry]
  obtain ⟨hjoin, hrecord⟩ := applyWrites_split_eq_join steps entry hsearches
  obtain ⟨-, -, hmissing⟩ := hrecord second
  refine ⟨hsearches, (hjoin _ _).trans rfl, rfl, hmissing ⟨"family", "af"⟩ ?_ rfl⟩
  simp [entry]

end FabricFootprint
