import FabricFootprint.Proofs.Diff.Alignment
import FabricFootprint.Proofs.Validation

/-!
FabricFootprint.Proofs.Diff.Passes — when the footprints of two assembly
passes can be compared.

* `AssemblyReport.ListsFailure` — a key is listed among the failures of a device. It is one of
  the keys that do not complete there (`listsFailure_iff`); `keys_entry` has the others.
* `aligned_passes_iff` — two passes over the same devices and keys, in whatever order, are
  aligned exactly when the same keys complete on both sides.
* `diffFootprints_passes` — so they can be compared exactly when both list the same failures.
-/

namespace FabricFootprint

/-! ## Keys that fail -/

/-- A key is listed among the failures of a device. -/
def AssemblyReport.ListsFailure (report : AssemblyReport) (device key : String) : Prop :=
  ∃ failure ∈ report.failures, failure.device = device ∧ failure.key = key

section OnePass

variable {rules : RuleSet} {registry : ConversionRegistry} {device : DeviceChunks}

theorem reportedFailure?_eq_some_iff {key : String} {failure : DeviceFailure} :
    reportedFailure? device.name key (extract key device rules registry) = some failure ↔
      ∃ e, extract key device rules registry = .error e ∧
        failure = ⟨device.name, key, Diagnostic.ofIncident e⟩ := by
  cases extract key device rules registry with
  | ok x => simp [reportedFailure?]
  | error e => simp [reportedFailure?, eq_comm]

theorem completes_eq_false_iff {key : String} :
    Completes rules registry device key = false ↔
      ∃ e, extract key device rules registry = .error e := by
  unfold Completes
  cases extract key device rules registry <;> simp [Except.toBool]

/-- A report lists a key as failed under each device of the name on which
it does not complete. -/
theorem listsFailure_iff {store : ChunkStore} {keys : List String} {name key : String} :
    (assemble store keys rules registry).report.ListsFailure name key ↔
      ∃ d ∈ store.devices, d.name = name ∧ key ∈ keys ∧
        Completes rules registry d key = false := by
  simp only [AssemblyReport.ListsFailure, report_failures, List.mem_flatMap,
    List.mem_filterMap, reportedFailure?_eq_some_iff, completes_eq_false_iff]
  constructor
  · rintro ⟨_, ⟨d, hd, other, hkey, e, he, rfl⟩, rfl, rfl⟩
    exact ⟨d, hd, rfl, hkey, e, he⟩
  · rintro ⟨d, hd, rfl, hkey, e, he⟩
    exact ⟨_, ⟨d, hd, key, hkey, e, he, rfl⟩, rfl, rfl⟩

end OnePass

/-! ## Two passes -/

/-- Two selections of the same keys have the same names exactly when they select alike. -/
theorem sameNames_filter_iff {keys others : List String} {p q : String → Bool}
    (h : SameNames id keys others) :
    SameNames id (keys.filter p) (others.filter q) ↔ ∀ key ∈ keys, p key = q key := by
  have hnodup := h.nodup
  have hothers := h.nodup_others
  have hmem := h.mem_iff
  rw [List.map_id] at hnodup hothers
  simp only [List.map_id] at hmem
  constructor
  · intro hsame key hkey
    have hboth := hsame.mem_iff key
    simp only [List.map_id, List.mem_filter, hkey, (hmem key).1 hkey, true_and] at hboth
    exact Bool.eq_iff_iff.2 hboth
  · intro hagree
    refine ⟨?_, ?_, fun key => ?_⟩
    · rw [List.map_id]
      exact hnodup.filter p
    · rw [List.map_id]
      exact hothers.filter q
    · simp only [List.map_id, List.mem_filter, ← hmem key]
      exact and_congr_right fun hkey => by rw [hagree key hkey]

theorem sameNames_map_iff {α : Type} {name : α → String} {items others : List α} :
    SameNames name items others ↔ SameNames id (items.map name) (others.map name) := by
  constructor
  · rintro ⟨hnodup, hothers, hmem⟩
    exact ⟨by rwa [List.map_id], by rwa [List.map_id], by simpa only [List.map_id] using hmem⟩
  · rintro ⟨hnodup, hothers, hmem⟩
    rw [List.map_id] at hnodup hothers
    exact ⟨hnodup, hothers, by simpa only [List.map_id] using hmem⟩

section TwoPasses

variable {store store' : ChunkStore} {keys keys' : List String} {rules rules' : RuleSet}
  {registry registry' : ConversionRegistry}

/-- The footprints of two passes over the same devices and keys are aligned exactly when the
same keys complete on both sides. Both sides drop the keys that do not, and nothing else. -/
theorem aligned_passes_iff
    (hdevices : SameNames DeviceChunks.name store.devices store'.devices)
    (hkeys : SameNames id keys keys') :
    Aligned (assemble store keys rules registry).report.footprint
        (assemble store' keys' rules' registry').report.footprint ↔
      ∀ d ∈ store.devices, ∀ d' ∈ store'.devices, d'.name = d.name → ∀ key ∈ keys,
        Completes rules registry d key = Completes rules' registry' d' key := by
  have hfilter (d d' : DeviceChunks) :
      SameNames DataEntry.key
          (keys.filterMap fun key => reportedData? key (extract key d rules registry))
          (keys'.filterMap fun key => reportedData? key (extract key d' rules' registry')) ↔
        ∀ key ∈ keys, Completes rules registry d key = Completes rules' registry' d' key := by
    rw [sameNames_map_iff, keys_entry, keys_entry, sameNames_filter_iff hkeys]
  have hnames : SameNames DeviceFootprint.device
      (assemble store keys rules registry).report.footprint
      (assemble store' keys' rules' registry').report.footprint := by
    rw [sameNames_map_iff, report_footprint, report_footprint, List.map_map, List.map_map]
    exact sameNames_map_iff.1 hdevices
  constructor
  · intro h d hd d' hd' hname
    have hentry := h.keys _ (by rw [report_footprint]; exact List.mem_map_of_mem hd) _
      (by rw [report_footprint]; exact List.mem_map_of_mem hd') hname
    exact (hfilter d d').1 hentry
  · intro h
    refine ⟨hnames, fun want hwant found hfound hname => ?_⟩
    rw [report_footprint, List.mem_map] at hwant hfound
    obtain ⟨d, hd, rfl⟩ := hwant
    obtain ⟨d', hd', rfl⟩ := hfound
    exact (hfilter d d').2 (h d hd d' hd' hname)

/-- The same keys complete on both sides exactly when both reports list the same failures.
Among distinct names a failure listed under a name is one of the one device of this name. -/
theorem completes_passes_iff
    (hdevices : SameNames DeviceChunks.name store.devices store'.devices)
    (hkeys : SameNames id keys keys') :
    (∀ d ∈ store.devices, ∀ d' ∈ store'.devices, d'.name = d.name → ∀ key ∈ keys,
        Completes rules registry d key = Completes rules' registry' d' key) ↔
      ∀ name key, (assemble store keys rules registry).report.ListsFailure name key ↔
        (assemble store' keys' rules' registry').report.ListsFailure name key := by
  have hmem (key : String) : key ∈ keys ↔ key ∈ keys' := by
    simpa only [List.map_id] using hkeys.mem_iff key
  simp only [listsFailure_iff]
  constructor
  · intro h name key
    constructor
    · rintro ⟨d, hd, rfl, hkey, hfails⟩
      obtain ⟨d', hd', hname⟩ :=
        List.mem_map.1 ((hdevices.mem_iff _).1 (List.mem_map_of_mem hd))
      exact ⟨d', hd', hname, (hmem key).1 hkey,
        (h d hd d' hd' hname key hkey).symm.trans hfails⟩
    · rintro ⟨d', hd', rfl, hkey, hfails⟩
      obtain ⟨d, hd, hname⟩ :=
        List.mem_map.1 ((hdevices.mem_iff _).2 (List.mem_map_of_mem hd'))
      have hkey := (hmem key).2 hkey
      exact ⟨d, hd, hname, hkey, (h d hd d' hd' hname.symm key hkey).trans hfails⟩
  · intro h d hd d' hd' hname key hkey
    have hfails : Completes rules registry d key = false ↔
        Completes rules' registry' d' key = false := by
      constructor
      · intro hfails
        obtain ⟨other, hother, hsame, -, hfails'⟩ :=
          (h d.name key).1 ⟨d, hd, rfl, hkey, hfails⟩
        obtain rfl : other = d' :=
          List.inj_on_of_nodup_map hdevices.nodup_others hother hd' (hsame.trans hname.symm)
        exact hfails'
      · intro hfails'
        obtain ⟨other, hother, hsame, -, hfails⟩ :=
          (h d.name key).2 ⟨d', hd', hname, (hmem key).1 hkey, hfails'⟩
        obtain rfl : other = d := List.inj_on_of_nodup_map hdevices.nodup hother hd hsame
        exact hfails
    rw [← Bool.not_inj_iff, Bool.eq_iff_iff, Bool.not_eq_true', Bool.not_eq_true']
    exact hfails

end TwoPasses

/-- Rules that were accepted with a registry fail for no device and key under it. -/
theorem not_listsFailure_of_accepted {store : ChunkStore} {keys : List String}
    {rules : RuleSet} {registry : ConversionRegistry} {known : Option (List String)}
    {list : List Rule} (h : RuleSet.ofRules registry known list = .ok rules)
    (name key : String) :
    ¬ (assemble store keys rules registry).report.ListsFailure name key := by
  obtain ⟨rfl, -⟩ := RuleSet.ofRules_eq_ok_iff.1 h
  rw [listsFailure_iff]
  rintro ⟨d, -, -, -, hfails⟩
  obtain ⟨e, he⟩ := completes_eq_false_iff.1 hfails
  obtain ⟨i, source, target, hstops, -⟩ := extract_eq_error_iff.1 he
  exact not_stopsAt_of_accepted h (fun _ _ hregistered => hregistered) hstops

/-- Two passes over the same devices and the same keys, each with its own order, rules, data
and conversions, can be compared exactly when both list the same failures for every device;
and so they can when each pass has the conversions that its rules were accepted with. -/
theorem diffFootprints_passes {store store' : ChunkStore} {keys keys' : List String}
    (hdevices : SameNames DeviceChunks.name store.devices store'.devices)
    (hkeys : SameNames id keys keys') (rules rules' : RuleSet)
    (registry registry' : ConversionRegistry) :
    let desired := (assemble store keys rules registry).report
    let observed := (assemble store' keys' rules' registry').report
    ((∃ diffs, diffFootprints desired.footprint observed.footprint = .ok diffs) ↔
      ∀ device key, desired.ListsFailure device key ↔ observed.ListsFailure device key) ∧
    ((∃ known list, RuleSet.ofRules registry known list = .ok rules) →
      (∃ known list, RuleSet.ofRules registry' known list = .ok rules') →
      ∃ diffs, diffFootprints desired.footprint observed.footprint = .ok diffs) := by
  intro desired observed
  have hok : (∃ diffs, diffFootprints desired.footprint observed.footprint = .ok diffs) ↔
      ∀ device key, desired.ListsFailure device key ↔ observed.ListsFailure device key := by
    rw [← completes_passes_iff hdevices hkeys, ← aligned_passes_iff hdevices hkeys]
    constructor
    · rintro ⟨diffs, hdiffs⟩
      exact (diffFootprints_eq_ok_iff.1 hdiffs).1
    · intro haligned
      exact ⟨_, diffFootprints_eq_ok_iff.2 ⟨haligned, rfl⟩⟩
  refine ⟨hok, ?_⟩
  rintro ⟨known, list, haccepted⟩ ⟨known', list', haccepted'⟩
  refine hok.2 fun device key => ?_
  exact iff_of_false (not_listsFailure_of_accepted haccepted device key)
    (not_listsFailure_of_accepted haccepted' device key)

/-- Two passes in different orders over the same devices and keys. With the standard
conversions on both sides they can be compared; without conversions on one side, a
key fails there alone. -/
theorem diffFootprints_passes_group :
    let vlan : Rule :=
      { (default : Rule) with chunk := "domains", destName := "name", commonKeys := ["vlan"] }
    let group : Rule :=
      { (default : Rule) with
        chunk := "groups", sourceName := "vlan", sourceType := some .string, destName := "id"
        destType := some .integer, linkage := .indirect }
    let domain : Record := FieldMap.ofList [("name", .str "web"), ("vlan", .str "7")]
    let leaf : DeviceChunks := ⟨"leaf-1", FieldMap.ofList [("domains", [domain])]⟩
    let spine : DeviceChunks := ⟨"spine-1", FieldMap.empty⟩
    let rules : RuleSet := ⟨[vlan, group]⟩
    let desired := (assemble ⟨[leaf, spine]⟩ ["web", "db"] rules .standard).report
    let observed (registry : ConversionRegistry) :=
      (assemble ⟨[spine, leaf]⟩ ["db", "web"] rules registry).report
    (∃ diffs, diffFootprints desired.footprint (observed .standard).footprint = .ok diffs) ∧
      ¬ ∃ diffs,
        diffFootprints desired.footprint (observed .empty).footprint = .ok diffs := by
  intro vlan group domain leaf spine rules desired observed
  have hdevices : SameNames DeviceChunks.name [leaf, spine] [spine, leaf] :=
    ⟨by decide, by decide, fun n => by simp [or_comm]⟩
  have hkeys : SameNames id ["web", "db"] ["db", "web"] :=
    ⟨by decide, by decide, fun n => by simp [or_comm]⟩
  have accepted : RuleSet.ofRules .standard none [vlan, group] = .ok rules := rfl
  refine ⟨?_, fun hok => ?_⟩
  · exact (diffFootprints_passes hdevices hkeys rules rules .standard .standard).2
      ⟨none, _, accepted⟩ ⟨none, _, accepted⟩
  · have hsame := (diffFootprints_passes hdevices hkeys rules rules .standard .empty).1.1 hok
    have hfails : (observed .empty).ListsFailure "leaf-1" "web" :=
      ⟨_, List.mem_cons_self, rfl, rfl⟩
    exact not_listsFailure_of_accepted accepted _ _ ((hsame "leaf-1" "web").2 hfails)

end FabricFootprint
