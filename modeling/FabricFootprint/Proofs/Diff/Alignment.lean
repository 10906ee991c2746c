import FabricFootprint.Proofs.Diff.Pairing

/-!
FabricFootprint.Proofs.Diff.Alignment — the footprints that can be compared.

* `Aligned` — distinct device names on each side, the same ones on both, and for each of them
  distinct keys, the same ones on both.
* `orphans_eq_nil_iff` — there is no orphan exactly when the footprints are aligned.
* `diffFootprints_eq_ok_iff` — so a comparison succeeds exactly then.
-/

namespace FabricFootprint

/-- Device names are the same on both sides, and so are the keys of each. -/
structure Aligned (desired observed : Footprint) : Prop where
  devices : SameNames DeviceFootprint.device desired observed
  keys : ∀ want ∈ desired, ∀ found ∈ observed, found.device = want.device →
    SameNames DataEntry.key want.entries found.entries

theorem Aligned.symm {desired observed : Footprint} (h : Aligned desired observed) :
    Aligned observed desired where
  devices := h.devices.symm
  keys want hwant found hfound hname := (h.keys found hfound want hwant hname.symm).symm

theorem diffDevice_fst_eq_nil_iff {desired observed : DeviceFootprint} :
    (diffDevice desired observed).1 = [] ↔
      SameNames DataEntry.key desired.entries observed.entries := by
  rw [sameNames_iff_paired]
  simp only [diffDevice, List.append_eq_nil_iff, List.map_eq_nil_iff, List.filter_eq_nil_iff]
  constructor
  · intro hyp
    obtain ⟨⟨⟨hobserved, hdesired⟩, hpartner⟩, hunmatched⟩ := hyp
    refine ⟨hobserved, hdesired, fun want hwant => ?_, hunmatched⟩
    rw [firstOfEach_of_fresh (repeatedNames_eq_nil_iff.1 hdesired)] at hpartner
    have hsome := hpartner want hwant
    rw [Option.isNone_iff_eq_none] at hsome
    exact Option.ne_none_iff_exists'.1 hsome
  · intro hyp
    obtain ⟨hobserved, hdesired, hpartner, hunmatched⟩ := hyp
    refine ⟨⟨⟨hobserved, hdesired⟩, fun want hwant => ?_⟩, hunmatched⟩
    rw [firstOfEach_of_fresh (repeatedNames_eq_nil_iff.1 hdesired)] at hwant
    obtain ⟨found, hfound⟩ := hpartner want hwant
    rw [hfound]
    exact Bool.false_ne_true

theorem diffDesired_fst_eq_nil_iff {observed : Footprint} {desired : DeviceFootprint} :
    (diffDesired observed desired).1 = [] ↔
      ∃ found, lastNamed? DeviceFootprint.device observed desired.device = some found ∧
        SameNames DataEntry.key desired.entries found.entries := by
  unfold diffDesired
  split
  · next hnone =>
    refine ⟨fun h => (nomatch h), fun ⟨found, hfound, _⟩ => ?_⟩
    rw [hnone] at hfound
    exact nomatch hfound
  · next found hfound =>
    show (diffDevice desired found).1 = [] ↔ _
    rw [diffDevice_fst_eq_nil_iff]
    constructor
    · exact fun h => ⟨found, hfound, h⟩
    · intro hyp
      obtain ⟨other, hother, h⟩ := hyp
      cases hfound.symm.trans hother
      exact h

/-- There is no orphan exactly when the footprints are aligned: repetitions and missing names
are looked for at both levels, and a device's keys only where it has a partner. -/
theorem orphans_eq_nil_iff {desired observed : Footprint} :
    orphans desired observed = [] ↔ Aligned desired observed := by
  simp only [orphans, List.append_eq_nil_iff, List.map_eq_nil_iff, List.flatMap_eq_nil_iff,
    diffDesired_fst_eq_nil_iff]
  constructor
  · intro hyp
    obtain ⟨⟨⟨hobserved, hdesired⟩, hpartner⟩, hunmatched⟩ := hyp
    rw [firstOfEach_of_fresh (repeatedNames_eq_nil_iff.1 hdesired)] at hpartner
    have hdevices : SameNames DeviceFootprint.device desired observed := by
      refine sameNames_iff_paired.2 ⟨hobserved, hdesired, fun want hwant => ?_, hunmatched⟩
      obtain ⟨found, hfound, -⟩ := hpartner want hwant
      exact ⟨found, hfound⟩
    refine ⟨hdevices, fun want hwant found hfound hname => ?_⟩
    obtain ⟨other, hother, hkeys⟩ := hpartner want hwant
    rw [(lastNamed?_eq_some_iff hdevices.nodup_others).2 ⟨hfound, hname⟩] at hother
    cases hother
    exact hkeys
  · rintro ⟨hdevices, hkeys⟩
    obtain ⟨hobserved, hdesired, hpartner, hunmatched⟩ := sameNames_iff_paired.1 hdevices
    refine ⟨⟨⟨hobserved, hdesired⟩, fun want hwant => ?_⟩, hunmatched⟩
    rw [firstOfEach_of_nodup hdevices.nodup] at hwant
    obtain ⟨found, hfound⟩ := hpartner want hwant
    obtain ⟨hmem, hname⟩ := (lastNamed?_eq_some_iff hdevices.nodup_others).1 hfound
    exact ⟨found, hfound, hkeys want hwant found hmem hname⟩

theorem diffFootprints_eq_ok_iff {desired observed : Footprint} {diffs : List DeviceDiff} :
    diffFootprints desired observed = .ok diffs ↔
      Aligned desired observed ∧
        diffs = (firstOfEach DeviceFootprint.device [] desired).filterMap fun want =>
          (diffDesired observed want).2 := by
  rw [← orphans_eq_nil_iff, diffFootprints]
  split
  · next hnone =>
    rw [hnone, Except.ok.injEq, eq_comm]
    exact ⟨fun h => ⟨rfl, h⟩, fun h => h.2⟩
  · next hsome =>
    exact ⟨fun h => (nomatch h), fun h => absurd h.1 hsome⟩

end FabricFootprint
