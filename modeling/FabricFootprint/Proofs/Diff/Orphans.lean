import FabricFootprint.Proofs.Diff.Pairing
import Mathlib.Data.List.Count
import Mathlib.Data.List.Perm.Basic

/-!
FabricFootprint.Proofs.Diff.Orphans — how often a comparison lists each orphan.

* `pairingOrphans` — the orphans of two lists that are paired by name. Devices are paired so,
  and the entries of two devices as well (`orphans_perm`, `diffDevice_fst`).
* `timesListed` — how often such a pairing lists a name for a cause. A name that
  only the desired side has is listed once, one that only the observed side has
  as often as it is there.
* `count_orphans_device`, `count_orphans_key` — the same for the devices of two footprints,
  and for the keys of the first desired and the last observed device of a name.
* `Orphan.exchanged`, `perm_exchanged` — with the sides exchanged, the same orphans are listed
  with their sides exchanged, if no name of an orphan is repeated on its side.
-/

namespace FabricFootprint

variable {α β : Type} {name : α → String}

/-! ## Names and how often they occur -/

/-- The induction is on the items; the names met before vary with it. -/
theorem count_repeatedNames (seen : List String) (items : List α) (n : String) :
    (repeatedNames name seen items).count n =
      (items.map name).count n - if n ∈ seen then 0 else 1 := by
  induction items generalizing seen with
  | nil => simp [repeatedNames]
  | cons x rest ih =>
    by_cases hx : name x = n
    · subst hx
      by_cases hseen : name x ∈ seen <;> simp [repeatedNames, hseen, ih]
    · by_cases hseen : name x ∈ seen <;> simp [repeatedNames, hseen, ih, hx, Ne.symm hx]

/-- What the first item of a name contributes, when no item of another name contributes it. -/
theorem count_flatMap_firstOfEach [DecidableEq β] {f : α → List β} {n : String} {b : β}
    (hf : ∀ x, name x ≠ n → b ∉ f x) (seen : List String) (items : List α) :
    ((firstOfEach name seen items).flatMap f).count b =
      if n ∈ seen then 0
      else ((items.find? fun x => name x == n).map fun x => (f x).count b).getD 0 := by
  induction items generalizing seen with
  | nil => simp [firstOfEach]
  | cons x rest ih =>
    by_cases hx : name x = n
    · subst hx
      by_cases hseen : name x ∈ seen <;> simp [firstOfEach, hseen, ih]
    · have hother : (f x).count b = 0 := List.count_eq_zero.2 (hf x hx)
      by_cases hseen : name x ∈ seen <;> simp [firstOfEach, hseen, ih, hx, Ne.symm hx, hother]

theorem count_firstOfEach (items : List α) (n : String) :
    ((firstOfEach name [] items).map name).count n = if n ∈ items.map name then 1 else 0 := by
  have hfirst := count_flatMap_firstOfEach (f := fun x => [name x]) (b := n) (n := n)
    (fun x hx => by simpa using Ne.symm hx) [] items
  rw [List.map_eq_flatMap, hfirst]
  by_cases hmem : n ∈ items.map name
  · obtain ⟨x, hx⟩ := Option.isSome_iff_exists.1
      (List.find?_isSome (p := fun x => name x == n).2 (by simpa using hmem))
    have hname : name x = n := by simpa using List.find?_some hx
    simp [hmem, hx, hname]
  · have hnone : (items.find? fun x => name x == n) = none := by simpa using hmem
    simp [hmem, hnone]

theorem count_unmatched (items others : List α) (n : String) :
    ((unmatched name items others).map name).count n =
      if n ∈ others.map name then 0 else (items.map name).count n := by
  have hnames : (unmatched name items others).map name =
      (items.map name).filter fun m => !(others.map name).contains m := by
    rw [List.filter_map]
    rfl
  rw [hnames]
  by_cases hmem : n ∈ others.map name
  · rw [if_pos hmem, List.count_eq_zero]
    intro h
    simpa [hmem] using (List.mem_filter.1 h).2
  · rw [if_neg hmem, List.count_filter (by simpa using hmem)]

/-! ## Pairings -/

/-- The orphans of two lists that are paired by name; `orphan` makes one of
a name and a cause. -/
def pairingOrphans (name : α → String) (orphan : String → OrphanCause → Orphan)
    (what : String) (items others : List α) : List Orphan :=
  (repeatedNames name [] others).map (fun n => orphan n (.duplicate what .observed)) ++
    (repeatedNames name [] items).map (fun n => orphan n (.duplicate what .desired)) ++
    ((firstOfEach name [] items).filter fun x => (lastNamed? name others (name x)).isNone).map
      (fun x => orphan (name x) (.only .desired)) ++
    (unmatched name others items).map (fun x => orphan (name x) (.only .observed))

/-- How often a pairing lists a name for a cause. -/
def timesListed (what : String) (items others : List String) (n : String) : OrphanCause → Nat
  | .only .desired => if n ∈ items ∧ n ∉ others then 1 else 0
  | .only .observed => if n ∈ items then 0 else others.count n
  | .duplicate w .desired => if w = what then items.count n - 1 else 0
  | .duplicate w .observed => if w = what then others.count n - 1 else 0

theorem mem_of_timesListed_pos {what n : String} {items others : List String}
    {cause : OrphanCause}
    (h : 0 < timesListed what items others n cause) : n ∈ items ∨ n ∈ others := by
  have hcount {names : List String} (h : 0 < names.count n) : n ∈ names :=
    List.count_pos_iff.1 h
  match cause with
  | .only .desired =>
    rw [timesListed] at h
    split at h
    · next hmem => exact .inl hmem.1
    · simp at h
  | .only .observed =>
    rw [timesListed] at h
    split at h
    · simp at h
    · exact .inr (hcount h)
  | .duplicate w .desired =>
    rw [timesListed] at h
    split at h
    · exact .inl (hcount (by omega))
    · simp at h
  | .duplicate w .observed =>
    rw [timesListed] at h
    split at h
    · exact .inr (hcount (by omega))
    · simp at h

section Pairings

variable {orphan : String → OrphanCause → Orphan}

/-- Names of different causes make different orphans. -/
theorem count_map_orphan (horphan : Function.Injective2 orphan) (names : List String)
    (n : String) (c cause : OrphanCause) :
    (names.map fun m => orphan m c).count (orphan n cause) =
      if c = cause then names.count n else 0 := by
  by_cases hcause : c = cause
  · subst hcause
    rw [if_pos rfl]
    exact List.count_map_of_injective names (fun m => orphan m c) (horphan.left c) n
  · rw [if_neg hcause, List.count_eq_zero, List.mem_map]
    rintro ⟨m, -, heq⟩
    exact hcause (horphan heq).2

theorem count_pairingOrphans (horphan : Function.Injective2 orphan) (what : String)
    (items others : List α) (n : String) (cause : OrphanCause) :
    (pairingOrphans name orphan what items others).count (orphan n cause) =
      timesListed what (items.map name) (others.map name) n cause := by
  have hpartner : (fun x => (lastNamed? name others (name x)).isNone) =
      (fun m => !(others.map name).contains m) ∘ name := by
    funext x
    rw [Bool.eq_iff_iff, Option.isNone_iff_eq_none, Option.eq_none_iff_forall_ne_some]
    simp [← not_exists, exists_lastNamed?_iff]
  have hfirsts : (((firstOfEach name [] items).filter
      fun x => (lastNamed? name others (name x)).isNone).map name).count n =
        if n ∈ items.map name ∧ n ∉ others.map name then 1 else 0 := by
    rw [hpartner, ← List.filter_map]
    by_cases hmem : n ∈ others.map name
    · rw [if_neg (fun h => h.2 hmem), List.count_eq_zero]
      intro h
      simpa [hmem] using (List.mem_filter.1 h).2
    · rw [List.count_filter (by simpa using hmem), count_firstOfEach]
      simp [hmem]
  have hcounts (xs : List α) (c : OrphanCause) :
      (xs.map fun x => orphan (name x) c).count (orphan n cause) =
        if c = cause then (xs.map name).count n else 0 := by
    rw [← count_map_orphan horphan, List.map_map]
    rfl
  simp only [pairingOrphans, List.count_append, hcounts, count_map_orphan horphan, hfirsts,
    count_unmatched, count_repeatedNames]
  match cause with
  | .only .desired => simp [timesListed]
  | .only .observed => simp [timesListed]
  | .duplicate w .desired => simp [timesListed, eq_comm]
  | .duplicate w .observed => simp [timesListed, eq_comm]

end Pairings

/-! ## Footprints -/

/-- A device that is an orphan. -/
def deviceOrphan (device : String) (cause : OrphanCause) : Orphan := ⟨device, none, cause⟩

/-- A key of a device that is an orphan. -/
def keyOrphan (device key : String) (cause : OrphanCause) : Orphan :=
  ⟨device, some key, cause⟩

theorem deviceOrphan_injective : Function.Injective2 deviceOrphan := by
  intro device device' cause cause' h
  simpa [deviceOrphan] using h

theorem keyOrphan_injective (device : String) : Function.Injective2 (keyOrphan device) := by
  intro key key' cause cause' h
  simpa [keyOrphan] using h

theorem diffDevice_fst (desired observed : DeviceFootprint) :
    (diffDevice desired observed).1 =
      pairingOrphans DataEntry.key (keyOrphan desired.device) "key" desired.entries
        observed.entries := rfl

/-- The orphans among the keys of a desired device, when there is an observed
device of its name. -/
def orphanKeys (observed : Footprint) (desired : DeviceFootprint) : List Orphan :=
  ((lastNamed? DeviceFootprint.device observed desired.device).map fun found =>
    (diffDevice desired found).1).getD []

theorem fields_of_mem_orphanKeys {observed : Footprint} {desired : DeviceFootprint}
    {o : Orphan} (h : o ∈ orphanKeys observed desired) :
    o.device = desired.device ∧ ∃ key, o.key = some key := by
  unfold orphanKeys at h
  cases hfound : lastNamed? DeviceFootprint.device observed desired.device with
  | none => simp [hfound] at h
  | some found =>
    simp only [hfound, Option.map_some, Option.getD_some, diffDevice, List.mem_append,
      List.mem_map] at h
    obtain ((⟨_, -, rfl⟩ | ⟨_, -, rfl⟩) | ⟨_, -, rfl⟩) | ⟨_, -, rfl⟩ := h <;>
      exact ⟨rfl, _, rfl⟩

/-- The orphans of two footprints are those among their devices, and those among the keys of
the devices that are paired. -/
theorem orphans_perm (desired observed : Footprint) :
    (orphans desired observed).Perm
      (pairingOrphans DeviceFootprint.device deviceOrphan "device" desired observed ++
        (firstOfEach DeviceFootprint.device [] desired).flatMap (orphanKeys observed)) := by
  have hfirsts (firsts : List DeviceFootprint) :
      (firsts.flatMap fun want => (diffDesired observed want).1).Perm
        ((firsts.filter fun want =>
            (lastNamed? DeviceFootprint.device observed want.device).isNone).map
          (fun want => deviceOrphan want.device (.only .desired)) ++
        firsts.flatMap (orphanKeys observed)) := by
    induction firsts with
    | nil => exact .nil
    | cons want rest ih =>
      cases hfound : lastNamed? DeviceFootprint.device observed want.device with
      | none =>
        have horphan :
            (diffDesired observed want).1 = [deviceOrphan want.device (.only .desired)] := by
          simp [diffDesired, hfound, deviceOrphan]
        simpa [horphan, hfound, orphanKeys] using ih
      | some found =>
        have hkeys : (diffDesired observed want).1 = orphanKeys observed want := by
          simp [diffDesired, hfound, orphanKeys]
        simp only [List.flatMap_cons, hkeys, List.filter_cons, hfound, Option.isNone_some,
          Bool.false_eq_true, if_false]
        exact (ih.append_left _).trans (List.perm_append_comm_assoc _ _ _)
  unfold orphans pairingOrphans
  simp only [List.append_assoc]
  refine List.Perm.append_left _ (List.Perm.append_left _ ?_)
  refine ((hfirsts _).append_right _).trans ?_
  rw [List.append_assoc]
  exact List.Perm.append_left _ List.perm_append_comm

theorem count_orphans_device (desired observed : Footprint) (device : String)
    (cause : OrphanCause) :
    (orphans desired observed).count (deviceOrphan device cause) =
      timesListed "device" (desired.map DeviceFootprint.device)
        (observed.map DeviceFootprint.device) device cause := by
  have hkeys : deviceOrphan device cause ∉
      (firstOfEach DeviceFootprint.device [] desired).flatMap (orphanKeys observed) := by
    intro h
    obtain ⟨d, -, hd⟩ := List.mem_flatMap.1 h
    obtain ⟨-, key, hkey⟩ := fields_of_mem_orphanKeys hd
    simp [deviceOrphan] at hkey
  rw [(orphans_perm desired observed).count_eq, List.count_append,
    count_pairingOrphans deviceOrphan_injective, List.count_eq_zero.2 hkeys, Nat.add_zero]

/-- The first device of a name. -/
def firstNamed? (footprint : Footprint) (device : String) : Option DeviceFootprint :=
  footprint.find? fun d => d.device == device

theorem count_orphans_key (desired observed : Footprint) (device key : String)
    (cause : OrphanCause) :
    (orphans desired observed).count (keyOrphan device key cause) =
      match firstNamed? desired device, lastNamed? DeviceFootprint.device observed device with
      | some want, some found =>
        timesListed "key" (want.entries.map DataEntry.key)
          (found.entries.map DataEntry.key) key cause
      | _, _ => 0 := by
  have hdevices : keyOrphan device key cause ∉
      pairingOrphans DeviceFootprint.device deviceOrphan "device" desired observed := by
    simp [pairingOrphans, deviceOrphan, keyOrphan]
  have hkeys (d : DeviceFootprint) (hd : d.device ≠ device) :
      keyOrphan device key cause ∉ orphanKeys observed d :=
    fun h => hd (fields_of_mem_orphanKeys h).1.symm
  rw [(orphans_perm desired observed).count_eq, List.count_append,
    List.count_eq_zero.2 hdevices, Nat.zero_add, count_flatMap_firstOfEach hkeys]
  simp only [List.not_mem_nil, if_false, firstNamed?]
  cases hwant : desired.find? fun d => d.device == device with
  | none => rfl
  | some want =>
    obtain rfl : want.device = device := by simpa using List.find?_some hwant
    cases hfound : lastNamed? DeviceFootprint.device observed want.device with
    | none => simp [orphanKeys, hfound]
    | some found =>
      simp [orphanKeys, hfound, diffDevice_fst, count_pairingOrphans (keyOrphan_injective _)]

/-! ## Sides exchanged -/

/-- The other one of the two sides. -/
def Side.other : Side → Side
  | .desired => .observed
  | .observed => .desired

/-- The cause with the two sides exchanged. -/
def OrphanCause.exchanged : OrphanCause → OrphanCause
  | .only side => .only side.other
  | .duplicate what side => .duplicate what side.other

/-- The orphan with the two sides exchanged. -/
def Orphan.exchanged (o : Orphan) : Orphan := { o with cause := o.cause.exchanged }

@[simp] theorem OrphanCause.exchanged_exchanged (cause : OrphanCause) :
    cause.exchanged.exchanged = cause := by
  rcases cause with (_ | _) | ⟨_, _ | _⟩ <;> rfl

@[simp] theorem Orphan.exchanged_exchanged (o : Orphan) : o.exchanged.exchanged = o := by
  simp [exchanged]

/-- A name that only one of two lists has is there once. -/
def OnceAlone (items others : List String) : Prop :=
  ∀ n, (n ∉ others → items.count n ≤ 1) ∧ (n ∉ items → others.count n ≤ 1)

theorem timesListed_exchanged {items others : List String} (h : OnceAlone items others)
    (what n : String) (cause : OrphanCause) :
    timesListed what others items n cause =
      timesListed what items others n cause.exchanged := by
  have honce {names : List String} (hle : names.count n ≤ 1) :
      names.count n = if n ∈ names then 1 else 0 := by
    by_cases hmem : n ∈ names
    · have hpos := List.count_pos_iff.2 hmem
      rw [if_pos hmem]
      omega
    · rw [if_neg hmem, List.count_eq_zero.2 hmem]
  match cause with
  | .only .desired =>
    by_cases hitems : n ∈ items
    · simp [timesListed, OrphanCause.exchanged, Side.other, hitems]
    · simp [timesListed, OrphanCause.exchanged, Side.other, hitems, honce ((h n).2 hitems)]
  | .only .observed =>
    by_cases hothers : n ∈ others
    · simp [timesListed, OrphanCause.exchanged, Side.other, hothers]
    · simp [timesListed, OrphanCause.exchanged, Side.other, hothers, honce ((h n).1 hothers)]
  | .duplicate w .desired => rfl
  | .duplicate w .observed => rfl

/-- No name of an orphan is repeated on its side: devices have distinct names, and a key that
only one of two devices of a name has is there once. -/
structure OrphansOnce (desired observed : Footprint) : Prop where
  desired_devices : (desired.map DeviceFootprint.device).Nodup
  observed_devices : (observed.map DeviceFootprint.device).Nodup
  keys : ∀ want ∈ desired, ∀ found ∈ observed, found.device = want.device →
    OnceAlone (want.entries.map DataEntry.key) (found.entries.map DataEntry.key)

theorem firstNamed?_eq_some_iff {footprint : Footprint} {device : String}
    {d : DeviceFootprint} (h : (footprint.map DeviceFootprint.device).Nodup) :
    firstNamed? footprint device = some d ↔ d ∈ footprint ∧ d.device = device :=
  find?_named_eq_some_iff h

/-- Among distinct names the first device of a name is the last one. -/
theorem lastNamed?_eq_firstNamed? {footprint : Footprint}
    (h : (footprint.map DeviceFootprint.device).Nodup) (device : String) :
    lastNamed? DeviceFootprint.device footprint device = firstNamed? footprint device := by
  refine Option.ext fun d => ?_
  rw [lastNamed?_eq_some_iff h, firstNamed?_eq_some_iff h]

/-- With the sides of a comparison exchanged the same orphans are listed, as often and with
their sides exchanged, when no name of an orphan is repeated on its side. -/
theorem perm_exchanged {desired observed : Footprint} (h : OrphansOnce desired observed) :
    (orphans observed desired).Perm ((orphans desired observed).map Orphan.exchanged) := by
  have hinjective : Function.Injective Orphan.exchanged :=
    Function.LeftInverse.injective Orphan.exchanged_exchanged
  have hdevices : OnceAlone (desired.map DeviceFootprint.device)
      (observed.map DeviceFootprint.device) := fun n =>
    ⟨fun _ => List.nodup_iff_count_le_one.1 h.desired_devices n,
      fun _ => List.nodup_iff_count_le_one.1 h.observed_devices n⟩
  refine List.perm_iff_count.2 fun o => ?_
  rw [← Orphan.exchanged_exchanged o, List.count_map_of_injective _ _ hinjective,
    Orphan.exchanged_exchanged]
  obtain ⟨device, key, cause⟩ := o
  cases key with
  | none =>
    show (orphans observed desired).count (deviceOrphan device cause) =
      (orphans desired observed).count (deviceOrphan device cause.exchanged)
    rw [count_orphans_device, count_orphans_device, timesListed_exchanged hdevices]
  | some key =>
    show (orphans observed desired).count (keyOrphan device key cause) =
      (orphans desired observed).count (keyOrphan device key cause.exchanged)
    rw [count_orphans_key, count_orphans_key, lastNamed?_eq_firstNamed? h.desired_devices,
      lastNamed?_eq_firstNamed? h.observed_devices]
    cases hwant : firstNamed? desired device with
    | none => cases firstNamed? observed device <;> rfl
    | some want =>
      cases hfound : firstNamed? observed device with
      | none => rfl
      | some found =>
        obtain ⟨hmem, hname⟩ := (firstNamed?_eq_some_iff h.desired_devices).1 hwant
        obtain ⟨hmem', hname'⟩ := (firstNamed?_eq_some_iff h.observed_devices).1 hfound
        exact timesListed_exchanged
          (h.keys want hmem found hmem' (hname'.trans hname.symm)) _ _ _

end FabricFootprint
