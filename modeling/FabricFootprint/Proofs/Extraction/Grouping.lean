import FabricFootprint.Proofs.Extraction.Agreement
import FabricFootprint.Proofs.Extraction.Provenance
import FabricFootprint.Proofs.Extraction.SplitJoin
import FabricFootprint.Proofs.Extraction.WriteOrder

/-!
FabricFootprint.Proofs.Extraction.Grouping — combine-by is a split-search for
the records' own options.

A combine-by goes through the option values, and for each of them through the records. A
split-search for the captured options goes through the records once. The two write the same
copies in different orders.

* `CombineBy.copiesOf` — the copies of one record, under its own option value.
* `CombineBy.writes_eq_groups`, `SplitSearch.writes_eq_flatMap` — both passes in these terms.
* `flatMap_groups` — a pass group by group is a pass over all records, as soon as only records
  of one group contribute anything.
* `CombineBy.NamesApart` — no name is written for two option values, so that the records which
  write one name are records of one group.
* `step_asSplitSearch` — under this condition the two kinds of rules make the same step.
-/

namespace FabricFootprint

/-! ## Groups of records -/

section Groups

variable {α β γ : Type} [DecidableEq β] {g : α → Option β} {f : α → List γ} {xs : List α}

/-- A pass over distinct elements to which one of them contributes at most. -/
theorem flatMap_distinct_eq {f : β → List γ} {ys : List β} {y : β} (hy : y ∈ ys)
    (hf : ∀ z ∈ ys, z ≠ y → f z = []) : (distinct ys).flatMap f = f y := by
  have hfilter : (distinct ys).filter (· == y) = [y] := by
    have hcount : (distinct ys).count y = 1 :=
      List.count_eq_one_of_mem (nodup_distinct ys) (mem_distinct.2 hy)
    rw [List.filter_beq, hcount, List.replicate_one]
  have hothers (z : β) (hz : z ∈ distinct ys) (hne : (z == y) = false) : f z = [] :=
    hf z (mem_distinct.1 hz) (by simpa using hne)
  rw [← flatMap_filter_of_nil hothers, hfilter, List.flatMap_singleton]

/-- A pass over the groups of a list, each group in the order of the list, is a pass over the
list, when whatever contributes belongs to one group. -/
theorem flatMap_groups (hnone : ∀ x ∈ xs, g x = none → f x = [])
    (hone : ∀ x ∈ xs, ∀ y ∈ xs, f x ≠ [] → f y ≠ [] → g x = g y) :
    (distinct (xs.filterMap g)).flatMap
        (fun v => (xs.filter fun x => g x == some v).flatMap f) =
      xs.flatMap f := by
  by_cases hsome : ∃ x ∈ xs, f x ≠ []
  · obtain ⟨x, hx, hfx⟩ := hsome
    obtain ⟨v, hv⟩ : ∃ v, g x = some v := by
      cases hg : g x with
      | none => exact absurd (hnone x hx hg) hfx
      | some v => exact ⟨v, rfl⟩
    -- whatever else contributes is in the group of `x`, and the other
    -- groups are passed in vain
    have hgroup (y : α) (hy : y ∈ xs) (hfy : f y ≠ []) : g y = some v :=
      (hone y hy x hx hfy hfx).trans hv
    rw [flatMap_distinct_eq (y := v)]
    · refine flatMap_filter_of_nil fun y hy hgy => ?_
      by_contra hfy
      simp [hgroup y hy hfy] at hgy
    · exact List.mem_filterMap.2 ⟨x, hx, hv⟩
    · intro w _ hw
      rw [List.flatMap_eq_nil_iff]
      intro y hy
      obtain ⟨hmem, hgy⟩ := List.mem_filter.1 hy
      by_contra hfy
      have heq : some v = some w := (hgroup y hmem hfy).symm.trans (by simpa using hgy)
      exact hw (Option.some.inj heq).symm
  · have hnil (x : α) (hx : x ∈ xs) : f x = [] := by
      by_contra hfx
      exact hsome ⟨x, hx, hfx⟩
    have hgroups (v : β) : (xs.filter fun x => g x == some v).flatMap f = [] :=
      List.flatMap_eq_nil_iff.2 fun x hx => hnil x (List.mem_filter.1 hx).1
    rw [List.flatMap_eq_nil_iff.2 hnil, List.flatMap_eq_nil_iff]
    exact fun v _ => hgroups v

end Groups

/-! ## The two passes -/

namespace CombineBy

/-- The option values of some records, as far as they are present and not null. -/
def present (combine : CombineBy) (records : List Record) : List Value :=
  records.filterMap fun record => Value.ofField? record combine.option

/-- The copies of a record under its own option value; a record without one gives none. -/
def copiesOf (combine : CombineBy) (record : Record) : List Write :=
  match Value.ofField? record combine.option with
  | none => []
  | some v => copies combine.keys "" ("." ++ v.text) record

/-- No name is written for two different option values. -/
def NamesApart (combine : CombineBy) (records : List Record) : Prop :=
  ∀ v ∈ combine.present records, ∀ w ∈ combine.present records, v ≠ w →
    ∀ key ∈ combine.keys, ∀ other ∈ combine.keys,
      key ++ "." ++ v.text ≠ other ++ "." ++ w.text

instance (combine : CombineBy) (records : List Record) :
    Decidable (combine.NamesApart records) :=
  inferInstanceAs (Decidable
    (∀ v ∈ combine.present records, ∀ w ∈ combine.present records, v ≠ w →
      ∀ key ∈ combine.keys, ∀ other ∈ combine.keys,
        key ++ "." ++ v.text ≠ other ++ "." ++ w.text))

variable {combine : CombineBy} {records : List Record} {record : Record}

theorem copiesOf_of_none (h : Value.ofField? record combine.option = none) :
    combine.copiesOf record = [] := by
  rw [copiesOf, h]

theorem copiesOf_of_some {v : Value} (h : Value.ofField? record combine.option = some v) :
    combine.copiesOf record = copies combine.keys "" ("." ++ v.text) record := by
  rw [copiesOf, h]

/-- A combine-by goes through its records group by group. -/
theorem writes_eq_groups (combine : CombineBy) (records : List Record) :
    combine.writes records = (distinct (combine.present records)).flatMap fun v =>
      (records.filter fun record => Value.ofField? record combine.option == some v).flatMap
        combine.copiesOf := by
  rw [writes_eq]
  refine List.flatMap_congr fun v _ => List.flatMap_congr fun record hrecord => ?_
  have hoption := (List.mem_filter.1 hrecord).2
  exact (copiesOf_of_some (by simpa using hoption)).symm

/-- Whatever a record writes has a name that ends in its option value. -/
theorem exists_key_of_writesOf_ne_nil {name : String}
    (h : writesOf name (combine.copiesOf record) ≠ []) :
    ∃ v, Value.ofField? record combine.option = some v ∧
      ∃ key ∈ combine.keys, name = key ++ "." ++ v.text := by
  obtain ⟨w, hw⟩ := List.exists_mem_of_ne_nil _ h
  obtain ⟨hw, hname⟩ := List.mem_filter.1 hw
  cases hoption : Value.ofField? record combine.option with
  | none =>
    rw [copiesOf_of_none hoption] at hw
    exact nomatch hw
  | some v =>
    rw [copiesOf_of_some hoption] at hw
    obtain ⟨key, hkey, _, _, rfl⟩ := mem_copies.1 hw
    rw [beq_iff_eq, fieldName_unqualified, ← String.append_assoc] at hname
    exact ⟨v, rfl, key, hkey, hname.symm⟩

/-- When no name is written for two option values, the order of the groups does not matter. -/
theorem writesOf_writes_eq (h : combine.NamesApart records) (name : String) :
    writesOf name (combine.writes records) =
      writesOf name (records.flatMap combine.copiesOf) := by
  rw [writes_eq_groups, writesOf_flatMap, writesOf_flatMap]
  simp only [writesOf_flatMap]
  refine flatMap_groups (fun record _ hnone => ?_)
    fun record hrecord other hother hw hw' => ?_
  · rw [copiesOf_of_none hnone, writesOf_nil]
  · obtain ⟨v, hv, key, hkey, rfl⟩ := exists_key_of_writesOf_ne_nil hw
    obtain ⟨w, hw, key', hkey', hname⟩ := exists_key_of_writesOf_ne_nil hw'
    have hmem : v ∈ combine.present records := List.mem_filterMap.2 ⟨record, hrecord, hv⟩
    have hmem' : w ∈ combine.present records := List.mem_filterMap.2 ⟨other, hother, hw⟩
    have heq : v = w := by
      by_contra hne
      exact h v hmem w hmem' hne key hkey key' hkey' hname
    rw [hv, hw, heq]

/-- Where a number and a text are written alike, the order of the groups shows. -/
example :
    let kinds : CombineBy := ⟨"kind", ["vlan"]⟩
    let port (kind : Value) (vlan : String) : Record :=
      FieldMap.ofList [("kind", kind), ("vlan", .str vlan)]
    let ports := [port (.int 1) "7", port (.str "1") "8", port (.int 1) "9"]
    ¬ kinds.NamesApart ports ∧
      writesOf "vlan.1" (kinds.writes ports) =
        [("vlan.1", .str "7"), ("vlan.1", .str "9"), ("vlan.1", .str "8")] ∧
      writesOf "vlan.1" (ports.flatMap kinds.copiesOf) =
        [("vlan.1", .str "7"), ("vlan.1", .str "8"), ("vlan.1", .str "9")] := by
  decide

end CombineBy

/-- A record is searched for with its own value, which has been captured, unless it is
null. -/
theorem filter_captured_eq {records : List Record} {record : Record} (h : record ∈ records)
    (field : String) :
    ((distinct (records.map (FilterTable.reading field))).filter fun v =>
        record.get? field == some v) = (Value.ofField? record field).toList := by
  rw [filter_holds_eq (nodup_distinct _)]
  cases hget : record.get? field with
  | none => simp [Value.ofField?, hget]
  | some v =>
    simp only [mem_distinct]
    by_cases hnull : v = .null
    · have hnotCaptured : v ∉ records.map (FilterTable.reading field) := by
        intro hv
        obtain ⟨other, -, hreading⟩ := List.mem_map.1 hv
        exact FilterTable.reading_ne_null field other (hreading.trans hnull)
      rw [if_neg hnotCaptured]
      simp [Value.ofField?, hget, hnull, Value.isNull]
    · have hpresent : Value.ofField? record field = some v :=
        Value.ofField?_eq_some_iff.2 ⟨hget, hnull⟩
      have hcaptured : v ∈ records.map (FilterTable.reading field) := by
        refine List.mem_map.2 ⟨record, h, ?_⟩
        rw [FilterTable.reading, hpresent, Option.getD_some]
      rw [if_pos hcaptured, hpresent, Option.toList_some]

/-- A split-search for the options that have just been captured goes
through its records once. -/
theorem SplitSearch.writes_eq_flatMap {filters : FilterTable} {name : String}
    {combine : CombineBy} {records : List Record}
    (h : filters.values name =
      distinct (records.map (FilterTable.reading combine.option))) :
    SplitSearch.writes filters ⟨combine.keys, [⟨name, combine.option⟩], ""⟩ records =
      records.flatMap combine.copiesOf := by
  refine List.flatMap_congr fun record hrecord => ?_
  have hprobes : (Probe.build filters [⟨name, combine.option⟩]).filter
      (fun probe => probe.accepts record) =
        (Value.ofField? record combine.option).toList.map
          (Probe.extend ⟨[], ""⟩ combine.option) := by
    have haccepts :=
      Probe.filter_accepts_extendAll filters [⟨[], ""⟩] ⟨name, combine.option⟩ record
    rw [h, filter_captured_eq hrecord] at haccepts
    exact haccepts.trans (List.flatMap_singleton ..)
  rw [hprobes]
  cases hoption : Value.ofField? record combine.option with
  | none => rw [CombineBy.copiesOf_of_none hoption]; rfl
  | some v => simp [CombineBy.copiesOf_of_some hoption, Probe.extend]

/-! ## The two rules -/

namespace Rule

/-- The rule with a combine-by replaced: the options are captured under a name, and one
split-search entry searches for them. -/
def asSplitSearch (rule : Rule) (name : String) (combine : CombineBy) : Rule :=
  { rule with
    filter := some ⟨name, combine.option⟩
    splitSearch := [⟨combine.keys, [⟨name, combine.option⟩], ""⟩]
    combineBy := none }

theorem captureFilter_asSplitSearch (rule : Rule) {name : String} (hname : name ≠ "")
    (combine : CombineBy) (filters : FilterTable) (records : List Record) :
    (rule.asSplitSearch name combine).captureFilter filters records =
      filters.capture name combine.option records := by
  simp [captureFilter, activeFilter?, asSplitSearch, Option.filter, hname]

end Rule

/-- Absorbing the same records, the two rules leave the same data. -/
theorem Progress.data_absorb_asSplitSearch {rule : Rule} {combine : CombineBy}
    (hcombine : rule.combineBy = some combine) (hsplit : rule.splitSearch = [])
    {name : String} (hname : name ≠ "") {records : List Record}
    (hapart : combine.NamesApart records)
    (p : Progress) :
    (p.absorb (rule.asSplitSearch name combine) records).data =
      (p.absorb rule records).data := by
  unfold absorb
  cases records with
  | nil => rfl
  | cons first rest =>
    have hvalues : (p.filters.capture name combine.option (first :: rest)).values name =
        distinct ((first :: rest).map (FilterTable.reading combine.option)) := by
      rw [FilterTable.values_capture, if_pos rfl]
    simp only [List.isEmpty_cons, Bool.false_eq_true, if_false,
      Rule.captureFilter_asSplitSearch rule hname]
    simp only [Rule.writes, Rule.asSplitSearch, hcombine, hsplit, List.flatMap_nil,
      List.append_nil, List.flatMap_singleton, SplitSearch.writes_eq_flatMap hvalues]
    refine applyWrites_congr (fun field => ?_) p.data
    rw [writesOf_append, writesOf_append, CombineBy.writesOf_writes_eq hapart]

/-- Combine-by is a split-search. A rule with a combine-by, and the rule that captures the
options under a name of its own and searches for them instead, leave the same data and the
same issues, or end the run with the same fault: at any point of any run, as long as no name
is written for two different options. Records without the option, or with null in it, are left
out by both rules; a text that reads as the missing option is captured like any other. -/
theorem step_asSplitSearch {rule : Rule} {combine : CombineBy}
    (hcombine : rule.combineBy = some combine) (hsplit : rule.splitSearch = [])
    {name : String} (hname : name ≠ "") (context : RunContext) (index : Nat) (p : Progress)
    (hapart : combine.NamesApart (rule.selection context p.data)) :
    (p.step context index (rule.asSplitSearch name combine)).map
        (fun q => (q.data, q.issues)) =
      (p.step context index rule).map fun q => (q.data, q.issues) := by
  have hcandidates : (rule.asSplitSearch name combine).candidates context index p.data =
      rule.candidates context index p.data := rfl
  unfold Progress.step
  rw [hcandidates]
  cases hfound : rule.candidates context index p.data with
  | error fault => rfl
  | ok found =>
    obtain ⟨records, issue⟩ := found
    rw [← Rule.eq_selection_of_candidates hfound] at hapart
    have hdata (q : Progress) := q.data_absorb_asSplitSearch hcombine hsplit hname hapart
    cases issue <;> simp [Except.map, hdata]

/-- Ports are grouped by their kind. One port has no kind, one has null in it, and one has
the text that stands for a missing kind; the identifier of another is no text, which is an
issue of either rule. -/
theorem step_asSplitSearch_ports :
    let kinds : CombineBy := ⟨"kind", ["vlan", "mtu"]⟩
    let ports : Rule :=
      { (default : Rule) with chunk := "ports", destName := "id", combineBy := some kinds }
    let port (id : Value) (vlan : String) (rest : List (String × Value)) : Record :=
      FieldMap.ofList (("id", id) :: ("vlan", .str vlan) :: rest)
    let leaf : DeviceChunks :=
      ⟨"leaf-1", FieldMap.ofList [("ports",
        [port (.str "100") "7" [("kind", .str "access"), ("mtu", .str "1500")],
          port (.str "100") "8" [], port (.str "100") "9" [("kind", .null)],
          port (.str "100") "10" [("kind", .str "not-exists")],
          port (.int 100) "11" [("kind", .str "trunk")],
          port (.str "100") "12" [("kind", .str "access")]])]⟩
    let context : RunContext := ⟨"100", leaf, .standard⟩
    let outcome (q : Progress) : Record × List Incident := (q.data, q.issues)
    kinds.NamesApart (ports.selection context Progress.start.data) ∧
      (Progress.start.step context 0 (ports.asSplitSearch "kinds" kinds)).map outcome =
        (Progress.start.step context 0 ports).map outcome ∧
      (Progress.start.step context 0 (ports.asSplitSearch "kinds" kinds)).map outcome =
        .ok (FieldMap.ofList [("mtu.access", .str "1500"), ("vlan.access", .str "12"),
            ("vlan.not-exists", .str "10")],
          [context.mistypedIssue 0 ports (.str "100") "integer" 1]) := by
  intro kinds ports port leaf context outcome
  have hapart : kinds.NamesApart (ports.selection context Progress.start.data) := by
    simp only [kinds, ports, port, leaf, context]
    decide
  have hstep :=
    @step_asSplitSearch ports kinds rfl rfl "kinds" (by decide) context 0 Progress.start
      hapart
  refine ⟨hapart, hstep, hstep.trans ?_⟩
  simp only [kinds, ports, port, leaf, context]
  rfl

end FabricFootprint
