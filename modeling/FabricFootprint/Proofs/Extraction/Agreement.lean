import FabricFootprint.Proofs.Extraction.Probes
import FabricFootprint.Proofs.Extraction.Reach

/-!
FabricFootprint.Proofs.Extraction.Agreement — an extraction depends on the fields that its
rules mention, and on nothing else.

* `Rule.copiedFields`, `Rule.testedFields` — the fields of a record that a rule copies, and
  those that it only compares, captures or groups by.
* `Rule.Alike` — two records that a rule cannot tell apart: equal in the copied fields, and in
  the tested ones equal up to null for absent.
* `RunContext.Alike`, `Progress.step_alike`, `Extraction.run_alike` — two runs over pairwise
  alike records make the same steps. Captured values are never null, which is what keeps null
  and absent together in a split-search.
* `DeviceChunks.AgreeOn` — agreement of two devices on what a rule list mentions.
* `extract_eq_of_agreeOn` — such devices give the same extraction, or the same error.
-/

namespace FabricFootprint

/-! ## Fields of a rule -/

namespace Rule

/-- The fields whose values a rule copies. -/
def copiedFields (rule : Rule) : List String :=
  rule.commonKeys ++ rule.splitSearch.flatMap SplitSearch.keys ++
    (rule.combineBy.map CombineBy.keys).getD []

/-- The fields that a rule tests: it compares them with its seed or with captured values,
captures them, or groups by them. -/
def testedFields (rule : Rule) : List String :=
  (if rule.hasMatchStep then [rule.destName] else []) ++
    (rule.activeFilter?.map Filter.key).toList ++
    (rule.splitSearch.flatMap fun entry => entry.directives.map SearchDirective.searchFor) ++
    (rule.combineBy.map CombineBy.option).toList

/-- A rule cannot tell two records apart. -/
structure Alike (rule : Rule) (r s : Record) : Prop where
  copied : ∀ field ∈ rule.copiedFields, r.get? field = s.get? field
  tested : ∀ field ∈ rule.testedFields, Value.ofField? r field = Value.ofField? s field

end Rule

/-! ## Lists that correspond element by element -/

section Lists

variable {α β γ : Type} {R : α → β → Prop} {xs : List α} {ys : List β}

theorem map_eq_of_forall₂ {f : α → γ} {g : β → γ} (h : List.Forall₂ R xs ys)
    (hfg : ∀ x y, R x y → f x = g y) : xs.map f = ys.map g := by
  induction h with
  | nil => rfl
  | cons hxy _ ih => rw [List.map_cons, List.map_cons, hfg _ _ hxy, ih]

theorem flatMap_eq_of_forall₂ {f : α → List γ} {g : β → List γ} (h : List.Forall₂ R xs ys)
    (hfg : ∀ x y, R x y → f x = g y) : xs.flatMap f = ys.flatMap g := by
  rw [List.flatMap_def, List.flatMap_def, map_eq_of_forall₂ h hfg]

theorem filterMap_eq_of_forall₂ {f : α → Option γ} {g : β → Option γ}
    (h : List.Forall₂ R xs ys)
    (hfg : ∀ x y, R x y → f x = g y) : xs.filterMap f = ys.filterMap g := by
  rw [List.filterMap_eq_flatMap_toList, List.filterMap_eq_flatMap_toList]
  exact flatMap_eq_of_forall₂ h fun x y hxy => congrArg Option.toList (hfg x y hxy)

theorem filter_forall₂ {p : α → Bool} {q : β → Bool} (h : List.Forall₂ R xs ys)
    (hpq : ∀ x y, R x y → p x = q y) : List.Forall₂ R (xs.filter p) (ys.filter q) :=
  List.rel_filter (fun x y hxy => iff_of_eq (congrArg (· = true) (hpq x y hxy))) h

theorem distinct_filter [DecidableEq α] (p : α → Bool) (xs : List α) :
    distinct (xs.filter p) = (distinct xs).filter p := by
  induction xs with
  | nil => rfl
  | cons x xs ih =>
    by_cases hx : p x = true
    · rw [List.filter_cons_of_pos hx, distinct, distinct, ih, List.filter_cons_of_pos hx,
        List.filter_comm]
    · rw [List.filter_cons_of_neg hx, ih, distinct, List.filter_cons_of_neg hx,
        List.filter_filter]
      refine List.filter_congr fun y _ => ?_
      by_cases hyx : y = x
      · simp [hyx, hx]
      · simp [hyx]

theorem flatMap_filter_of_nil {p : α → Bool} {f : α → List γ} {xs : List α}
    (hf : ∀ x ∈ xs, p x = false → f x = []) : (xs.filter p).flatMap f = xs.flatMap f := by
  induction xs with
  | nil => rfl
  | cons x xs ih =>
    have hrest := ih fun y hy => hf y (List.mem_cons_of_mem _ hy)
    cases hx : p x with
    | true => rw [List.filter_cons_of_pos hx, List.flatMap_cons, List.flatMap_cons, hrest]
    | false => rw [List.filter_cons_of_neg (by simp [hx]), List.flatMap_cons,
        hf x List.mem_cons_self hx, hrest, List.nil_append]

end Lists

/-! ## One rule -/

theorem Value.get?_eq_some_iff_of_ne_null {record : Record} {field : String} {v : Value}
    (h : v ≠ .null) : record.get? field = some v ↔ Value.ofField? record field = some v := by
  rw [Value.ofField?_eq_some_iff]
  simp [h]

/-- In a combine-by a null option counts as an absent one. -/
theorem CombineBy.writes_eq (combine : CombineBy) (records : List Record) :
    combine.writes records =
      (distinct (records.filterMap fun record =>
          Value.ofField? record combine.option)).flatMap fun v =>
        (records.filter fun record =>
            Value.ofField? record combine.option == some v).flatMap
          (copies combine.keys "" ("." ++ v.text)) := by
  have hoptions : (records.filterMap fun record => Value.ofField? record combine.option) =
      (records.filterMap fun record => record.get? combine.option).filter fun v =>
        !v.isNull :=
    List.filter_filterMap.symm
  unfold writes options
  rw [hoptions, distinct_filter, ← flatMap_filter_of_nil (p := fun v => !v.isNull)]
  · refine List.flatMap_congr fun v hv => ?_
    have hnull : v ≠ .null := by
      rintro rfl
      simpa [Value.isNull] using (List.mem_filter.1 hv).2
    have hsame (record : Record) : (record.get? combine.option == some v) =
        (Value.ofField? record combine.option == some v) := by
      rw [Bool.eq_iff_iff, beq_iff_eq, beq_iff_eq, Value.get?_eq_some_iff_of_ne_null hnull]
    simp only [Value.segment?_eq_text hnull, hsame]
  · intro v _ hv
    cases v <;> simp_all [Value.isNull, Value.segment?]

namespace Rule

section Alike

variable {rule : Rule} {r s : Record} {rs ss : List Record} {filters : FilterTable}

theorem Alike.judge_eq (h : rule.Alike r s) (hmatch : rule.hasMatchStep = true)
    (seed : Value) :
    rule.judge seed r = rule.judge seed s := by
  have hdest : rule.destName ∈ rule.testedFields := by simp [testedFields, hmatch]
  rw [judge, judge, h.tested _ hdest]

theorem Alike.copies_eq (h : rule.Alike r s) {keys : List String}
    (hkeys : ∀ key ∈ keys, key ∈ rule.copiedFields) (qualifier suffix : String) :
    copies keys qualifier suffix r = copies keys qualifier suffix s :=
  List.filterMap_congr fun key hkey => by rw [h.copied key (hkeys key hkey)]

theorem select_alike (h : List.Forall₂ rule.Alike rs ss) (hmatch : rule.hasMatchStep = true)
    (seed : Value) : List.Forall₂ rule.Alike (rule.select seed rs) (rule.select seed ss) :=
  filter_forall₂ h fun _ _ hrs => by rw [hrs.judge_eq hmatch seed]

theorem mistyped_eq (h : List.Forall₂ rule.Alike rs ss) (hmatch : rule.hasMatchStep = true)
    (seed : Value) : rule.mistyped seed rs = rule.mistyped seed ss :=
  filterMap_eq_of_forall₂ h fun _ _ hrs => by rw [hrs.judge_eq hmatch seed]

theorem captureFilter_eq (h : List.Forall₂ rule.Alike rs ss) :
    rule.captureFilter filters rs = rule.captureFilter filters ss := by
  unfold captureFilter
  cases hfilter : rule.activeFilter? with
  | none => rfl
  | some f =>
    have hkey : f.key ∈ rule.testedFields := by simp [testedFields, hfilter]
    have hreadings :
        rs.map (FilterTable.reading f.key) = ss.map (FilterTable.reading f.key) :=
      map_eq_of_forall₂ h fun r s hrs => by
        rw [FilterTable.reading, FilterTable.reading, hrs.tested _ hkey]
    simp only [FilterTable.capture, hreadings]

/-- A probe of captured values accepts both of two alike records, or none: captured
values are not null. -/
theorem Alike.accepts_eq (h : rule.Alike r s) (hfilters : filters.NoNull)
    {entry : SplitSearch} (declared : entry ∈ rule.splitSearch) {probe : Probe}
    (hprobe : probe ∈ Probe.build filters entry.directives) :
    probe.accepts r = probe.accepts s := by
  have hpair (pair : String × Value) (hpair : pair ∈ probe.pairs) :
      r.get? pair.1 = some pair.2 ↔ s.get? pair.1 = some pair.2 := by
    obtain ⟨d, hd, hfield, hvalue⟩ := Probe.exists_directive_of_mem_pairs hprobe hpair
    have hnull : pair.2 ≠ .null := fun heq => hfilters d.searchFrom (heq ▸ hvalue)
    have htested : pair.1 ∈ rule.testedFields := by
      rw [hfield, testedFields]
      refine List.mem_append_left _ (List.mem_append_right _ (List.mem_flatMap.2 ?_))
      exact ⟨entry, declared, List.mem_map.2 ⟨d, hd, rfl⟩⟩
    rw [Value.get?_eq_some_iff_of_ne_null hnull, Value.get?_eq_some_iff_of_ne_null hnull,
      h.tested _ htested]
  rw [Bool.eq_iff_iff, Probe.accepts, Probe.accepts, List.all_eq_true, List.all_eq_true]
  simp only [beq_iff_eq]
  exact forall₂_congr hpair

theorem splitWrites_eq (h : List.Forall₂ rule.Alike rs ss) (hfilters : filters.NoNull)
    {entry : SplitSearch} (declared : entry ∈ rule.splitSearch) :
    entry.writes filters rs = entry.writes filters ss := by
  have hkeys (key : String) (hkey : key ∈ entry.keys) : key ∈ rule.copiedFields := by
    refine List.mem_append_left _ (List.mem_append_right _ (List.mem_flatMap.2 ?_))
    exact ⟨entry, declared, hkey⟩
  refine flatMap_eq_of_forall₂ h fun r s hrs => ?_
  rw [List.filter_congr fun probe hprobe => hrs.accepts_eq hfilters declared hprobe]
  exact List.flatMap_congr fun probe _ => hrs.copies_eq hkeys _ _

theorem combineWrites_eq (h : List.Forall₂ rule.Alike rs ss) {combine : CombineBy}
    (declared : rule.combineBy = some combine) : combine.writes rs = combine.writes ss := by
  have hoption : combine.option ∈ rule.testedFields := by simp [testedFields, declared]
  have hkeys (key : String) (hkey : key ∈ combine.keys) : key ∈ rule.copiedFields := by
    simp [copiedFields, declared, hkey]
  have hoptions : (rs.filterMap fun record => Value.ofField? record combine.option) =
      ss.filterMap fun record => Value.ofField? record combine.option :=
    filterMap_eq_of_forall₂ h fun r s hrs => hrs.tested _ hoption
  rw [CombineBy.writes_eq, CombineBy.writes_eq, hoptions]
  refine List.flatMap_congr fun v _ => ?_
  refine flatMap_eq_of_forall₂ (filter_forall₂ h fun r s hrs => ?_) fun r s hrs => ?_
  · rw [hrs.tested _ hoption]
  · exact hrs.copies_eq hkeys _ _

/-- A rule copies the same out of alike records. -/
theorem writes_eq (h : List.Forall₂ rule.Alike rs ss) (hfilters : filters.NoNull) :
    rule.writes filters rs = rule.writes filters ss := by
  have hsplit : (rule.splitSearch.flatMap fun entry => entry.writes filters rs) =
      rule.splitSearch.flatMap fun entry => entry.writes filters ss :=
    List.flatMap_congr fun entry declared => splitWrites_eq h hfilters declared
  have hcommon : ∀ key ∈ rule.commonKeys, key ∈ rule.copiedFields := fun key hkey =>
    List.mem_append_left _ (List.mem_append_left _ hkey)
  cases h with
  | nil => rfl
  | cons hrs hrest =>
    have halike := List.Forall₂.cons hrs hrest
    simp only [writes, hsplit, hrs.copies_eq hcommon]
    cases declared : rule.combineBy with
    | none => rfl
    | some combine => simp only [combineWrites_eq halike declared]

theorem noNull_captureFilter (h : filters.NoNull) (rs : List Record) :
    (rule.captureFilter filters rs).NoNull := by
  unfold captureFilter
  split
  · exact h
  · exact h.capture _ _ _

theorem noNull_filtersAfter {context : RunContext} {p : Progress} (h : p.filters.NoNull) :
    (rule.filtersAfter context p).NoNull := by
  unfold filtersAfter
  split
  · exact h
  · exact noNull_captureFilter h _

end Alike

end Rule

/-! ## Two runs -/

/-- Two runs for the same key, with the same converters and on devices of the same name, see
alike records in the chunks of some rules. -/
structure RunContext.Alike (rules : List Rule) (c e : RunContext) : Prop where
  key : c.key = e.key
  name : c.device.name = e.device.name
  registry : c.registry = e.registry
  records : ∀ rule ∈ rules,
    List.Forall₂ rule.Alike (c.device.records rule.chunk) (e.device.records rule.chunk)

section Runs

variable {rules : List Rule} {rule : Rule} {c e : RunContext}

theorem RunContext.Alike.locate_eq (h : c.Alike rules e) (index : Nat) (issue : Incident) :
    c.locate index issue = e.locate index issue := by
  rw [locate, locate, h.name, h.key]

theorem Rule.selectWithIssue_alike (h : c.Alike rules e) (hmatch : rule.hasMatchStep = true)
    {rs ss : List Record} (hrecords : List.Forall₂ rule.Alike rs ss) (index : Nat)
    (seed : Value) :
    ∃ found found' issue, rule.selectWithIssue c index seed rs = (found, issue) ∧
      rule.selectWithIssue e index seed ss = (found', issue) ∧
      List.Forall₂ rule.Alike found found' := by
  rw [selectWithIssue_eq, selectWithIssue_eq]
  by_cases htext : rule.matchType = .containment ∧ seed.str? = none
  · rw [if_pos htext, if_pos htext]
    refine ⟨[], [], _, rfl, ?_, .nil⟩
    simp only [RunContext.seedIssue, h.locate_eq]
  · rw [if_neg htext, if_neg htext, mistyped_eq hrecords hmatch]
    refine ⟨_, _, _, rfl, ?_, select_alike hrecords hmatch seed⟩
    simp only [RunContext.mistypedIssue, h.locate_eq]

/-- Two runs that have written the same data find alike candidates for a rule, with the same
issue, or both end with the same fault. -/
theorem Rule.candidates_alike (h : c.Alike rules e) (hrule : rule ∈ rules) (index : Nat)
    (data : Record) :
    (∃ fault, rule.candidates c index data = .error fault ∧
      rule.candidates e index data = .error fault) ∨
    ∃ rs ss issue, rule.candidates c index data = .ok (rs, issue) ∧
      rule.candidates e index data = .ok (ss, issue) ∧ List.Forall₂ rule.Alike rs ss := by
  have hrecords := h.records rule hrule
  unfold candidates
  by_cases hmatch : rule.hasMatchStep = true
  · rw [if_pos hmatch, if_pos hmatch, ← h.registry, ← h.key]
    cases rule.seed c.registry c.key data with
    | absent => exact .inr ⟨[], [], none, rfl, rfl, .nil⟩
    | found seed =>
      obtain ⟨rs, ss, issue, hrs, hss, halike⟩ :=
        selectWithIssue_alike h hmatch hrecords index seed
      exact .inr ⟨rs, ss, issue, congrArg Except.ok hrs, congrArg Except.ok hss, halike⟩
    | refused fault =>
      refine .inr ⟨[], [], _, rfl, ?_, .nil⟩
      simp only [RunContext.refusedIssue, h.locate_eq]
    | unregistered fault => exact .inl ⟨_, rfl, rfl⟩
  · rw [if_neg hmatch, if_neg hmatch]
    exact .inr ⟨_, _, none, rfl, rfl, hrecords⟩

theorem Progress.absorb_alike {p : Progress} (hfilters : p.filters.NoNull)
    {rs ss : List Record}
    (h : List.Forall₂ rule.Alike rs ss) : p.absorb rule rs = p.absorb rule ss := by
  unfold absorb
  cases h with
  | nil => rfl
  | cons hrs hrest =>
    have halike := List.Forall₂.cons hrs hrest
    have hnull (records : List Record) : (rule.captureFilter p.filters records).NoNull :=
      Rule.noNull_captureFilter hfilters records
    simp only [List.isEmpty_cons, Rule.captureFilter_eq halike,
      Rule.writes_eq halike (hnull _)]

/-- Two runs that have gathered the same make the same step. -/
theorem Progress.step_alike (h : c.Alike rules e) (hrule : rule ∈ rules) {p : Progress}
    (hfilters : p.filters.NoNull) (index : Nat) :
    p.step c index rule = p.step e index rule := by
  unfold step
  rcases Rule.candidates_alike h hrule index p.data with
    ⟨fault, hc, he⟩ | ⟨rs, ss, issue, hc, he, halike⟩
  · rw [hc, he]
  · rw [hc, he]
    cases issue with
    | none => exact congrArg Except.ok (absorb_alike hfilters halike)
    | some issue =>
      have hfilters' : (p.withIssue issue).filters.NoNull := hfilters
      exact congrArg Except.ok (absorb_alike hfilters' halike)

/-- Two runs over alike records that have gathered the same end the same way. The
induction is on the rules; the position and the progress vary with it, and no captured
value is null on the way. -/
theorem Extraction.run_alike (h : c.Alike rules e) {p : Progress}
    (hfilters : p.filters.NoNull) (index : Nat) {later : List Rule}
    (hlater : ∀ rule ∈ later, rule ∈ rules) :
    run c index later p = run e index later p := by
  induction later generalizing index p with
  | nil => rfl
  | cons rule rest ih =>
    have hrule := hlater rule List.mem_cons_self
    rw [run_cons, run_cons, Progress.step_alike h hrule hfilters]
    cases hstep : p.step e index rule with
    | error fault => simp only [h.locate_eq]
    | ok q =>
      have hq : q.filters.NoNull := by
        rw [(Progress.step_fields hstep).2]
        exact Rule.noNull_filtersAfter hfilters
      exact ih hq (index + 1) fun other hother => hlater other (List.mem_cons_of_mem _ hother)

end Runs

/-! ## Devices that agree -/

/-- Two records of a chunk agree on every field that a rule over this chunk mentions. To agree
is to be equal, or for a field that no rule over the chunk copies, to be null on one side and
absent on the other. -/
def AgreeFor (rules : List Rule) (chunk : String) (r s : Record) : Prop :=
  ∀ field, (∃ rule ∈ rules, rule.chunk = chunk ∧
      (field ∈ rule.copiedFields ∨ field ∈ rule.testedFields)) →
    r.get? field = s.get? field ∨
      (∀ rule ∈ rules, rule.chunk = chunk → field ∉ rule.copiedFields) ∧
        (r.get? field = some .null ∧ s.get? field = none ∨
          r.get? field = none ∧ s.get? field = some .null)

/-- Two devices of one name agree on what a rule list mentions: each chunk that a rule names
has as many records in both, and records at the same place agree. -/
structure DeviceChunks.AgreeOn (rules : List Rule) (d e : DeviceChunks) : Prop where
  name : d.name = e.name
  records : ∀ rule ∈ rules,
    List.Forall₂ (AgreeFor rules rule.chunk) (d.records rule.chunk) (e.records rule.chunk)

theorem AgreeFor.alike {rules : List Rule} {rule : Rule} (hrule : rule ∈ rules) {r s : Record}
    (h : AgreeFor rules rule.chunk r s) : rule.Alike r s where
  copied := by
    intro field hfield
    rcases h field ⟨rule, hrule, rfl, .inl hfield⟩ with heq | ⟨hnever, -⟩
    · exact heq
    · exact absurd hfield (hnever rule hrule rfl)
  tested := by
    intro field hfield
    unfold Value.ofField?
    rcases h field ⟨rule, hrule, rfl, .inr hfield⟩ with heq | ⟨-, ⟨hr, hs⟩ | ⟨hr, hs⟩⟩
    · rw [heq]
    · rw [hr, hs]
      rfl
    · rw [hr, hs]
      rfl

/-- Devices that agree on what the rules mention give the same extraction: the same data and
the same issues, or the same error. -/
theorem extract_eq_of_agreeOn {rules : RuleSet} {d e : DeviceChunks}
    (h : d.AgreeOn rules.rules e) (registry : ConversionRegistry) (key : String) :
    extract key d rules registry = extract key e rules registry := by
  have halike : RunContext.Alike rules.rules ⟨key, d, registry⟩ ⟨key, e, registry⟩ :=
    ⟨rfl, h.name, rfl,
      fun rule hrule => (h.records rule hrule).imp fun _ _ hrs => hrs.alike hrule⟩
  have hrun := Extraction.run_alike halike (p := Progress.start) FilterTable.noNull_empty 0
    fun rule hrule => hrule
  unfold extract
  rw [hrun]

/-- A note that the rule does not mention differs, and the kind of port is null on one
leaf and absent on the other, for the second record the other way round. The rule
compares the identifiers, finds no kind to group by, and gives the same data and the same
issue for both leaves. -/
theorem extract_eq_of_agreeOn_null :
    let ports : Rule :=
      { (default : Rule) with
        chunk := "ports", destName := "id", commonKeys := ["vlan"]
        combineBy := some ⟨"kind", ["mtu"]⟩ }
    let first (rest : List (String × Value)) : Record :=
      FieldMap.ofList ([("id", .str "100"), ("vlan", .null), ("mtu", .int 9000)] ++ rest)
    let second (rest : List (String × Value)) : Record :=
      FieldMap.ofList ([("id", .int 100), ("vlan", .str "8")] ++ rest)
    let leaf : DeviceChunks :=
      ⟨"leaf-1", FieldMap.ofList [("ports",
        [first [("kind", .null), ("note", .str "uplink")], second []])]⟩
    let renoted : DeviceChunks :=
      ⟨"leaf-1", FieldMap.ofList [("ports",
        [first [("note", .str "spare")], second [("kind", .null)]])]⟩
    leaf ≠ renoted ∧ DeviceChunks.AgreeOn [ports] leaf renoted ∧
      extract "100" leaf ⟨[ports]⟩ .standard = extract "100" renoted ⟨[ports]⟩ .standard ∧
      (extract "100" leaf ⟨[ports]⟩ .standard).map (fun x => (x.data, x.issues.length)) =
        .ok (FieldMap.ofList [("vlan", .null)], 1) := by
  intro ports first second leaf renoted
  have copied : ports.copiedFields = ["vlan", "mtu"] := rfl
  have tested : ports.testedFields = ["id", "kind"] := rfl
  have agreeFor {r s : Record} (hvlan : r.get? "vlan" = s.get? "vlan")
      (hmtu : r.get? "mtu" = s.get? "mtu") (hid : r.get? "id" = s.get? "id")
      (hkind : r.get? "kind" = some .null ∧ s.get? "kind" = none ∨
        r.get? "kind" = none ∧ s.get? "kind" = some .null) :
      AgreeFor [ports] "ports" r s := by
    rintro field ⟨rule, hrule, -, hfield⟩
    obtain rfl := List.mem_singleton.1 hrule
    simp only [copied, tested, List.mem_cons, List.not_mem_nil, or_false] at hfield
    obtain (rfl | rfl) | rfl | rfl := hfield
    · exact .inl hvlan
    · exact .inl hmtu
    · exact .inl hid
    · exact .inr ⟨by simp [copied], hkind⟩
  have agree : DeviceChunks.AgreeOn [ports] leaf renoted := by
    refine ⟨rfl, List.forall_mem_singleton.2 ?_⟩
    have hleaf : leaf.records ports.chunk =
        [first [("kind", .null), ("note", .str "uplink")], second []] := rfl
    have hrenoted : renoted.records ports.chunk =
        [first [("note", .str "spare")], second [("kind", .null)]] := rfl
    rw [hleaf, hrenoted]
    refine .cons (agreeFor ?_ ?_ ?_ (.inl ⟨?_, ?_⟩))
      (.cons (agreeFor ?_ ?_ ?_ (.inr ⟨?_, ?_⟩)) .nil)
    all_goals simp [first, second, FieldMap.ofList, FieldMap.get?_insert]
  have differ : leaf ≠ renoted := by
    simp only [leaf, renoted]
    decide
  refine ⟨differ, agree, extract_eq_of_agreeOn agree .standard "100", ?_⟩
  simp only [ports, first, second, leaf]
  rfl

end FabricFootprint
