import FabricFootprint.Proofs.Diff.Alignment
import FabricFootprint.Proofs.Diff.Entry

/-!
FabricFootprint.Proofs.Diff.Comparison — what a comparison of two footprints compares.

* `HasData` — the data of a device and a key; aligned footprints have one
  at most (`data_unique`).
* `IsDiffOf` — each desired entry against the observed data of its device and key,
  in desired order. Nothing else is in a diff, so it is the only one of two
  footprints (`isDiffOf_unique`).
* `Reordered` — another order of the devices, and of the entries of each; it keeps `HasData`,
  and so it keeps the diff.
* `diffFootprints_compares` — a comparison succeeds exactly on aligned
  footprints, and gives this diff.
-/

namespace FabricFootprint

/-! ## Desired entries and observed data -/

/-- The footprint has this data for the device and the key. -/
def HasData (footprint : Footprint) (device key : String) (data : Record) : Prop :=
  ∃ d ∈ footprint, d.device = device ∧
    ∃ entry ∈ d.entries, entry.key = key ∧ entry.data = data

/-- The differences of an entry from the observed data of its key. -/
def IsEntryDiff (observed : Footprint) (device : String) (want : DataEntry) (e : DiffEntry) :
    Prop :=
  ∃ data, HasData observed device want.key data ∧ e = diff want.key want.data data

/-- The differences of all entries of a device, in its order. -/
def IsDeviceDiff (observed : Footprint) (want : DeviceFootprint) (d : DeviceDiff) : Prop :=
  d.device = want.device ∧
    List.Forall₂ (IsEntryDiff observed want.device) want.entries d.entries

/-- The differences of all devices, in desired order. -/
def IsDiffOf (desired observed : Footprint) (diffs : List DeviceDiff) : Prop :=
  List.Forall₂ (IsDeviceDiff observed) desired diffs

/-- Some key of the device has data that differ from the observed ones. -/
def DeviceDiffers (observed : Footprint) (want : DeviceFootprint) : Prop :=
  ∃ entry ∈ want.entries, ∃ data, HasData observed want.device entry.key data ∧
    DataDiffer entry.data data

section Compared

variable {desired observed : Footprint} {diffs other : List DeviceDiff}

/-- In aligned footprints a device and a key have one data at most. -/
theorem Aligned.data_unique (h : Aligned desired observed) {device key : String}
    {data data' : Record} (hdata : HasData observed device key data)
    (hdata' : HasData observed device key data') : data = data' := by
  obtain ⟨d, hd, rfl, entry, hentry, rfl, rfl⟩ := hdata
  obtain ⟨d', hd', hname, entry', hentry', hkey, rfl⟩ := hdata'
  obtain rfl : d' = d := List.inj_on_of_nodup_map h.devices.nodup_others hd' hd hname
  obtain ⟨want, hwant, hpair⟩ :=
    List.mem_map.1 ((h.devices.mem_iff _).2 (List.mem_map_of_mem hd))
  have hkeys := (h.keys want hwant d' hd hpair.symm).nodup_others
  rw [List.inj_on_of_nodup_map hkeys hentry' hentry hkey]

theorem Aligned.entryDiff_unique (h : Aligned desired observed) {device : String} :
    Relator.RightUnique (IsEntryDiff observed device) := by
  rintro want _ _ ⟨data, hdata, rfl⟩ ⟨data', hdata', rfl⟩
  rw [h.data_unique hdata hdata']

theorem Aligned.deviceDiff_unique (h : Aligned desired observed) :
    Relator.RightUnique (IsDeviceDiff observed) := by
  rintro want ⟨device, entries⟩ ⟨device', entries'⟩ ⟨hdevice, hentries⟩ ⟨hdevice', hentries'⟩
  obtain rfl : device = device' := hdevice.trans hdevice'.symm
  obtain rfl : entries = entries' :=
    List.right_unique_forall₂' h.entryDiff_unique hentries hentries'
  rfl

/-- A diff of aligned footprints is the only one. -/
theorem Aligned.isDiffOf_unique (h : Aligned desired observed)
    (hdiffs : IsDiffOf desired observed diffs)
    (hother : IsDiffOf desired observed other) : diffs = other :=
  List.right_unique_forall₂' h.deviceDiff_unique hdiffs hother

/-- A desired device is compared with the observed device of its name, key by key. -/
theorem Aligned.isDeviceDiff_diffDesired (h : Aligned desired observed)
    {want : DeviceFootprint} (hwant : want ∈ desired) :
    ∃ d, (diffDesired observed want).2 = some d ∧ IsDeviceDiff observed want d := by
  have hname := (h.devices.mem_iff want.device).1 (List.mem_map_of_mem hwant)
  obtain ⟨found, hfound⟩ := exists_lastNamed?_iff.2 hname
  obtain ⟨hmem, hdevice⟩ := (lastNamed?_eq_some_iff h.devices.nodup_others).1 hfound
  have hkeys := h.keys want hwant found hmem hdevice
  refine ⟨(diffDevice want found).2, ?_, rfl, ?_⟩
  · simp only [diffDesired, hfound]
    rw [diffDevice_fst_eq_nil_iff.2 hkeys]
    rfl
  · show List.Forall₂ _ want.entries
      (List.filterMap _ (firstOfEach DataEntry.key [] want.entries))
    rw [firstOfEach_of_nodup hkeys.nodup]
    refine forall₂_filterMap fun entry hentry => ?_
    obtain ⟨partner, hpartner⟩ :=
      exists_lastNamed?_iff.2 ((hkeys.mem_iff entry.key).1 (List.mem_map_of_mem hentry))
    obtain ⟨hpmem, hpkey⟩ := (lastNamed?_eq_some_iff hkeys.nodup_others).1 hpartner
    refine ⟨diff entry.key entry.data partner.data, ?_, partner.data,
      ⟨found, hmem, hdevice, partner, hpmem, hpkey, rfl⟩, rfl⟩
    show (lastNamed? DataEntry.key found.entries entry.key).map _ = _
    rw [hpartner]
    rfl

theorem isDiffOf_of_diffFootprints (h : diffFootprints desired observed = .ok diffs) :
    IsDiffOf desired observed diffs := by
  obtain ⟨haligned, rfl⟩ := diffFootprints_eq_ok_iff.1 h
  rw [firstOfEach_of_nodup haligned.devices.nodup]
  exact forall₂_filterMap fun want hwant => haligned.isDeviceDiff_diffDesired hwant

/-- A device of a diff has a change exactly when the data of some key differ as maps. -/
theorem Aligned.hasChanges_iff (h : Aligned desired observed) {want : DeviceFootprint}
    {d : DeviceDiff} (hd : IsDeviceDiff observed want d) :
    d.hasChanges = true ↔ DeviceDiffers observed want := by
  obtain ⟨-, hentries⟩ := hd
  rw [DeviceDiff.hasChanges, List.any_eq_true]
  refine ⟨?_, ?_⟩
  · intro hyp
    obtain ⟨e, he, hchange⟩ := hyp
    obtain ⟨entry, hentry, data, hdata, rfl⟩ := exists_of_mem_right hentries he
    exact ⟨entry, hentry, data, hdata, hasChanges_diff_iff.1 hchange⟩
  · intro hyp
    obtain ⟨entry, hentry, data, hdata, hdiffer⟩ := hyp
    obtain ⟨e, he, data', hdata', rfl⟩ := exists_of_mem_left hentries hentry
    rw [h.data_unique hdata hdata'] at hdiffer
    exact ⟨_, he, hasChanges_diff_iff.2 hdiffer⟩

end Compared

/-! ## Order -/

/-- The same devices in another order, each with the same entries in another order. -/
def Reordered (observed other : Footprint) : Prop :=
  ∃ middle, observed.Perm middle ∧
    List.Forall₂ (fun a b => b.device = a.device ∧ a.entries.Perm b.entries) middle other

section Order

variable {desired observed other : Footprint}

theorem Reordered.exists_of_mem (h : Reordered observed other) {d : DeviceFootprint}
    (hd : d ∈ other) :
    ∃ found ∈ observed, d.device = found.device ∧ found.entries.Perm d.entries := by
  obtain ⟨middle, hperm, hsame⟩ := h
  obtain ⟨found, hfound, hpair⟩ := exists_of_mem_right hsame hd
  exact ⟨found, hperm.mem_iff.2 hfound, hpair⟩

theorem Reordered.exists_of_mem_observed (h : Reordered observed other)
    {found : DeviceFootprint} (hfound : found ∈ observed) :
    ∃ d ∈ other, d.device = found.device ∧ found.entries.Perm d.entries := by
  obtain ⟨middle, hperm, hsame⟩ := h
  exact exists_of_mem_left hsame (hperm.mem_iff.1 hfound)

theorem Reordered.hasData_iff (h : Reordered observed other) {device key : String}
    {data : Record} :
    HasData other device key data ↔ HasData observed device key data := by
  refine ⟨?_, ?_⟩
  · intro hyp
    obtain ⟨d, hd, rfl, entry, hentry, hkey, hdata⟩ := hyp
    obtain ⟨found, hfound, hname, hperm⟩ := h.exists_of_mem hd
    exact ⟨found, hfound, hname.symm, entry, hperm.mem_iff.2 hentry, hkey, hdata⟩
  · intro hyp
    obtain ⟨found, hfound, rfl, entry, hentry, hkey, hdata⟩ := hyp
    obtain ⟨d, hd, hname, hperm⟩ := h.exists_of_mem_observed hfound
    exact ⟨d, hd, hname, entry, hperm.mem_iff.1 hentry, hkey, hdata⟩

theorem Reordered.perm_devices (h : Reordered observed other) :
    (observed.map DeviceFootprint.device).Perm (other.map DeviceFootprint.device) := by
  obtain ⟨middle, hperm, hsame⟩ := h
  refine (hperm.map _).trans (List.Perm.of_eq ?_)
  clear hperm
  induction hsame with
  | nil => rfl
  | cons hpair _ ih => rw [List.map_cons, List.map_cons, ih, hpair.1]

/-- The order of the observed side has no part in the alignment. -/
theorem Aligned.of_reordered (haligned : Aligned desired observed)
    (h : Reordered observed other) :
    Aligned desired other where
  devices := haligned.devices.of_perm h.perm_devices
  keys := by
    intro want hwant d hd hname
    obtain ⟨found, hfound, hdevice, hperm⟩ := h.exists_of_mem hd
    exact (haligned.keys want hwant found hfound (hdevice.symm.trans hname)).of_perm
      (hperm.map _)

theorem Reordered.isDiffOf_iff (h : Reordered observed other) {diffs : List DeviceDiff} :
    IsDiffOf desired other diffs ↔ IsDiffOf desired observed diffs := by
  have hentry : IsEntryDiff other = IsEntryDiff observed := by
    funext device want e
    exact propext (exists_congr fun data => and_congr h.hasData_iff Iff.rfl)
  unfold IsDiffOf IsDeviceDiff
  rw [hentry]

theorem Reordered.diffFootprints_eq (h : Reordered observed other) {diffs : List DeviceDiff}
    (hdiffs : diffFootprints desired observed = .ok diffs) :
    diffFootprints desired other = .ok diffs := by
  have haligned := (diffFootprints_eq_ok_iff.1 hdiffs).1.of_reordered h
  have hother := diffFootprints_eq_ok_iff.2 ⟨haligned, rfl⟩
  rw [hother]
  refine congrArg Except.ok (haligned.isDiffOf_unique (isDiffOf_of_diffFootprints hother) ?_)
  exact h.isDiffOf_iff.2 (isDiffOf_of_diffFootprints hdiffs)

end Order

/-! ## Comparison -/

/-- A comparison succeeds exactly on aligned footprints. It then gives the differences of
each desired entry from the observed data of its device and its key, in desired order,
whatever the order of the observed side; and a device is reported as changed exactly when the
data of some key differ. -/
theorem diffFootprints_compares (desired observed : Footprint) :
    ((∃ diffs, diffFootprints desired observed = .ok diffs) ↔ Aligned desired observed) ∧
    ∀ diffs, diffFootprints desired observed = .ok diffs →
      IsDiffOf desired observed diffs ∧
      (∀ other, Reordered observed other → diffFootprints desired other = .ok diffs) ∧
      List.Forall₂ (fun want change => change.device = want.device ∧
          (change.changed = true ↔ DeviceDiffers observed want))
        desired (changeReport diffs) := by
  refine ⟨⟨?_, fun h => ⟨_, diffFootprints_eq_ok_iff.2 ⟨h, rfl⟩⟩⟩, fun diffs hdiffs => ?_⟩
  · rintro ⟨diffs, hdiffs⟩
    exact (diffFootprints_eq_ok_iff.1 hdiffs).1
  · have haligned := (diffFootprints_eq_ok_iff.1 hdiffs).1
    have hdiff := isDiffOf_of_diffFootprints hdiffs
    refine ⟨hdiff, fun other h => h.diffFootprints_eq hdiffs, ?_⟩
    rw [changeReport, List.forall₂_map_right_iff]
    exact hdiff.imp fun want d hd => ⟨hd.1, haligned.hasChanges_iff hd⟩

/-- Two devices observed in another order, one of them with another VLAN. -/
theorem diffFootprints_compares_vlan :
    let vlan (i : Int64) : Record := FieldMap.ofList [("vlan", .int i)]
    let desired : Footprint := [⟨"leaf-1", [⟨"web", vlan 7⟩]⟩, ⟨"leaf-2", [⟨"web", vlan 7⟩]⟩]
    let observed : Footprint := [⟨"leaf-2", [⟨"web", vlan 7⟩]⟩, ⟨"leaf-1", [⟨"web", vlan 8⟩]⟩]
    Aligned desired observed ∧ ∃ diffs, diffFootprints desired observed = .ok diffs ∧
      diffFootprints desired observed.reverse = .ok diffs ∧
      changeReport diffs = [⟨"leaf-1", true⟩, ⟨"leaf-2", false⟩] := by
  intro vlan desired observed
  obtain ⟨haligned, hcompares⟩ := diffFootprints_compares desired observed
  have same : Reordered observed observed.reverse :=
    ⟨observed.reverse, (List.reverse_perm observed).symm,
      List.forall₂_same.2 fun d _ => ⟨rfl, .rfl⟩⟩
  obtain ⟨-, hreordered, -⟩ := hcompares _ rfl
  exact ⟨haligned.1 ⟨_, rfl⟩, _, rfl, hreordered _ same, rfl⟩

end FabricFootprint
