import FabricFootprint.Proofs.Extraction.Probes
import FabricFootprint.Proofs.Extraction.Reach

/-!
FabricFootprint.Proofs.Extraction.Provenance — where the fields of extracted data come from.

* `Rule.Copies` — the three ways in which a rule comes to write a value: each copies it from
  one of the records that the rule works on, under a name built from this record alone.
* `Rule.copies_of_mem_writes` — all writes of a rule are such copies. The suffix of a
  split-search name is taken from captured values, perhaps of another chunk; it is the
  record's own nevertheless, since the record was searched for with these values.
* `exists_copies_of_extract` — every field of extracted data goes back to one record of one
  rule, however often it was overwritten on the way.
-/

namespace FabricFootprint

/-- How a rule that works on `records` comes to write `v` under `field`: it copies `v` from
one of them, as it is. -/
inductive Rule.Copies (rule : Rule) (records : List Record) (field : String) (v : Value)
    (record : Record) : Prop where
  /-- A common key of the first record. -/
  | common {key : String} (first : records.head? = some record)
      (listed : key ∈ rule.commonKeys) (value : record.get? key = some v)
      (name : field = fieldName rule.qualifier key "")
  /-- A key of a split-search entry. The suffix holds the record's own values in the fields
  that the entry searches. -/
  | split {entry : SplitSearch} {key : String} {own : List Value}
      (declared : entry ∈ rule.splitSearch) (searches : entry.directives ≠ [])
      (listed : key ∈ entry.keys) (value : record.get? key = some v)
      (carries : List.Forall₂ (fun d w => record.get? d.searchFor = some w)
        entry.directives own)
      (name : field = fieldName entry.qualifier key (suffixText own))
  /-- A key of a combine-by. The suffix is the record's own value in the option field. -/
  | combine {combine : CombineBy} {key : String} {option : Value}
      (declared : rule.combineBy = some combine) (listed : key ∈ combine.keys)
      (value : record.get? key = some v) (carries : record.get? combine.option = some option)
      (present : option ≠ .null) (name : field = key ++ "." ++ option.text)

/-! ## Names -/

theorem fieldName_append (qualifier name a b : String) :
    fieldName qualifier name (a ++ b) = fieldName qualifier name a ++ b := by
  unfold fieldName
  split <;> simp [String.append_assoc]

theorem fieldName_unqualified (name suffix : String) :
    fieldName "" name suffix = name ++ suffix := by
  simp [fieldName]

/-! ## Writes -/

namespace Rule

variable {rule : Rule} {records : List Record} {filters : FilterTable} {field : String}
  {v : Value}

theorem copies_of_mem_split {entry : SplitSearch} (declared : entry ∈ rule.splitSearch)
    (h : (field, v) ∈ entry.writes filters records) :
    ∃ record ∈ records, rule.Copies records field v record := by
  simp only [SplitSearch.writes, List.mem_flatMap, List.mem_filter] at h
  obtain ⟨record, hrecord, probe, ⟨hprobe, haccepts⟩, hcopy⟩ := h
  obtain ⟨searches, own, hcaptured, rfl⟩ := Probe.mem_build_iff.1 hprobe
  obtain ⟨key, listed, w, value, hname⟩ := mem_copies.1 hcopy
  have carries := (Probe.accepts_ofValues_iff record hcaptured.length_eq).1 haccepts
  rw [Probe.suffix_ofValues] at hname
  cases hname
  exact ⟨record, hrecord, .split declared searches listed value carries rfl⟩

theorem copies_of_mem_combine {combine : CombineBy} (declared : rule.combineBy = some combine)
    (h : (field, v) ∈ combine.writes records) :
    ∃ record ∈ records, rule.Copies records field v record := by
  obtain ⟨option, -, hwrite⟩ := List.mem_flatMap.1 h
  by_cases present : option = .null
  · rw [present] at hwrite
    exact nomatch hwrite
  · rw [Value.segment?_eq_text present] at hwrite
    obtain ⟨record, hrecord, hcopy⟩ := List.mem_flatMap.1 hwrite
    obtain ⟨hmem, hoption⟩ := List.mem_filter.1 hrecord
    have carries : record.get? combine.option = some option := by simpa using hoption
    obtain ⟨key, listed, w, value, hname⟩ := mem_copies.1 hcopy
    rw [fieldName_unqualified, ← String.append_assoc] at hname
    cases hname
    exact ⟨record, hmem, .combine declared listed value carries present rfl⟩

/-- All writes of a rule are copies of values of the records that it works on. -/
theorem copies_of_mem_writes (h : (field, v) ∈ rule.writes filters records) :
    ∃ record ∈ records, rule.Copies records field v record := by
  unfold writes at h
  rcases List.mem_append.1 h with h | hcombine
  · rcases List.mem_append.1 h with hcommon | hsplit
    · cases records with
      | nil => exact nomatch hcommon
      | cons first rest =>
        obtain ⟨key, listed, w, value, hname⟩ := mem_copies.1 hcommon
        cases hname
        exact ⟨first, List.mem_cons_self, .common rfl listed value rfl⟩
    · obtain ⟨entry, declared, hwrite⟩ := List.mem_flatMap.1 hsplit
      exact copies_of_mem_split declared hwrite
  · cases declared : rule.combineBy with
    | none =>
      rw [declared] at hcombine
      exact nomatch hcombine
    | some combine =>
      rw [declared] at hcombine
      exact copies_of_mem_combine declared hcombine

end Rule

/-! ## Extracted data -/

/-- Every field of extracted data is a copy: some rule of the run selected a record of its
chunk, with the seed that it found in the data written before it, and copied the value from
this record under a name built from this record alone. -/
theorem exists_copies_of_extract {key : String} {device : DeviceChunks} {rules : RuleSet}
    {registry : ConversionRegistry} {x : Extraction}
    (h : extract key device rules registry = .ok x) {field : String} {v : Value}
    (hv : x.data.get? field = some v) :
    ∃ i rule p record, rules.rules[i]? = some rule ∧
      Reaches ⟨key, device, registry⟩ rules.rules i p ∧
      record ∈ device.records rule.chunk ∧
      rule.Selects ⟨key, device, registry⟩ p.data record ∧
      rule.Copies (rule.selection ⟨key, device, registry⟩ p.data) field v record := by
  obtain ⟨q, hreach, rfl⟩ := extract_eq_ok_iff.1 h
  obtain ⟨i, rule, p, hget, hp, hwrite⟩ :=
    Extraction.exists_write (reaches_length_iff.1 hreach) hv
  obtain ⟨record, hrecord, hcopies⟩ := Rule.copies_of_mem_writes hwrite
  obtain ⟨hchunk, hselects⟩ := Rule.mem_selection_iff.1 hrecord
  exact ⟨i, rule, p, record, hget, hp, hchunk, hselects, hcopies⟩

/-- The first rule captures the kinds of route targets, the second one searches another chunk
for them and overwrites the field of the first export target with that of the second. The
value that stays goes back to a record of the second chunk. -/
theorem exists_copies_of_extract_targets :
    let kinds : Rule :=
      { (default : Rule) with
        chunk := "kinds", matchType := .noMatch
        filter := some ⟨"kind", "type"⟩ }
    let targets : Rule :=
      { (default : Rule) with
        chunk := "targets", destName := "vni"
        splitSearch := [⟨["rtt"], [⟨"kind", "direction"⟩], "evpn"⟩] }
    let target (direction rtt : String) : Record :=
      FieldMap.ofList [("vni", .str "100"), ("direction", .str direction), ("rtt", .str rtt)]
    let leaf : DeviceChunks :=
      ⟨"leaf-1", FieldMap.ofList
        [("kinds", [FieldMap.ofList [("type", .str "export")]]),
          ("targets", [target "export" "65000:1", target "import" "65000:2",
            target "export" "65000:3"])]⟩
    let context : RunContext := ⟨"100", leaf, .standard⟩
    ∃ x, extract "100" leaf ⟨[kinds, targets]⟩ .standard = .ok x ∧
      x.data.get? "evpn.rtt.export" = some (.str "65000:3") ∧
      ∃ i rule p record, [kinds, targets][i]? = some rule ∧
        Reaches context [kinds, targets] i p ∧
        record ∈ leaf.records rule.chunk ∧ rule.Selects context p.data record ∧
        rule.Copies (rule.selection context p.data) "evpn.rtt.export" (.str "65000:3")
          record := by
  intro kinds targets target leaf context
  have extracted : extract "100" leaf ⟨[kinds, targets]⟩ .standard =
      .ok ⟨"100", FieldMap.ofList [("evpn.rtt.export", .str "65000:3")], []⟩ := by
    simp only [kinds, targets, target, leaf]
    rfl
  exact ⟨_, extracted, rfl, exists_copies_of_extract extracted rfl⟩

end FabricFootprint
