import FabricFootprint.Extraction.Probe

/-!
FabricFootprint.Extraction.Writes — the fields that a rule copies out of its selected records.

A write is a field name and a value; writes are applied from left to right, so the last
write of a name stays. No write depends on the data written before it, only on the records
and on the captured filters.

Main statement: `get?_applyWrites` — a field holds its last write, or what it held before.
-/

namespace FabricFootprint

/-- A field name and the value written under it. -/
abbrev Write := String × Value

/-- The data after some writes, the last write of a name staying. -/
def applyWrites (data : Record) (writes : List Write) : Record :=
  writes.foldl (fun data w => data.insert w.1 w.2) data

/-- The last value written under a name. -/
def lastWrite? (writes : List Write) (name : String) : Option Value :=
  (writes.reverse.find? fun w => w.1 == name).map Prod.snd

@[simp] theorem applyWrites_nil (data : Record) : applyWrites data [] = data := rfl

theorem applyWrites_append (data : Record) (ws vs : List Write) :
    applyWrites data (ws ++ vs) = applyWrites (applyWrites data ws) vs := by
  simp [applyWrites]

theorem get?_applyWrites (data : Record) (ws : List Write) (name : String) :
    (applyWrites data ws).get? name = (lastWrite? ws name).or (data.get? name) := by
  induction ws generalizing data with
  | nil => rfl
  | cons w rest ih =>
    have h := ih (data.insert w.1 w.2)
    simp only [applyWrites, List.foldl_cons] at h ⊢
    rw [h, FieldMap.get?_insert]
    simp only [lastWrite?, List.reverse_cons, List.find?_append]
    cases rest.reverse.find? fun v => v.1 == name with
    | some v => simp
    | none => by_cases hw : w.1 = name <;> simp [hw]

/-- Copies of the keys that a record has. -/
def copies (keys : List String) (qualifier suffix : String) (record : Record) : List Write :=
  keys.filterMap fun key =>
    (record.get? key).map fun v => (fieldName qualifier key suffix, v)

theorem mem_copies {keys : List String} {qualifier suffix : String} {record : Record}
    {w : Write} :
    w ∈ copies keys qualifier suffix record ↔
      ∃ key ∈ keys, ∃ v, record.get? key = some v ∧
        (fieldName qualifier key suffix, v) = w := by
  simp [copies]

/-- The copies of one split-search entry: for each record, in order, one set for each
probe that accepts it. -/
def SplitSearch.writes (filters : FilterTable) (entry : SplitSearch) (records : List Record) :
    List Write :=
  let probes := Probe.build filters entry.directives
  records.flatMap fun record =>
    (probes.filter fun probe => probe.accepts record).flatMap fun probe =>
      copies entry.keys entry.qualifier probe.suffix record

/-- The distinct values of the option field, in the order of first occurrence. -/
def CombineBy.options (combine : CombineBy) (records : List Record) : List Value :=
  distinct (records.filterMap fun record => record.get? combine.option)

/-- The copies of a combine-by: for each option value that is not null, in order, those of the
records with this value. -/
def CombineBy.writes (combine : CombineBy) (records : List Record) : List Write :=
  (combine.options records).flatMap fun v =>
    match v.segment? with
    | none => []
    | some segment =>
      (records.filter fun record => record.get? combine.option == some v).flatMap
        (copies combine.keys "" ("." ++ segment))

namespace Rule

/-- The filters after a rule has seen its selected records. -/
def captureFilter (rule : Rule) (filters : FilterTable) (records : List Record) :
    FilterTable :=
  match rule.activeFilter? with
  | none => filters
  | some f => filters.capture f.name f.key records

/-- All copies of a rule, given the filters after its own capture: the common keys of the
first record, then split-search, then combine-by. -/
def writes (rule : Rule) (filters : FilterTable) (records : List Record) : List Write :=
  (match records with
    | [] => []
    | first :: _ => copies rule.commonKeys rule.qualifier "" first) ++
  (rule.splitSearch.flatMap fun entry => entry.writes filters records) ++
  (match rule.combineBy with
    | none => []
    | some combine => combine.writes records)

end Rule

end FabricFootprint
