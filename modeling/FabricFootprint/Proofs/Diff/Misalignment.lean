import FabricFootprint.Proofs.Diff.Alignment
import FabricFootprint.Proofs.Diff.Orphans

/-!
FabricFootprint.Proofs.Diff.Misalignment — what the report of a misalignment lists.

A report is made of texts. In plain names no mark of a text occurs, so the text that says that
one side lacks such a name is the text of one orphan (`Orphan.text_eq_only_iff`), and is
listed as often as that orphan is.

* `misaligned_report_repeats` — the two sides are not treated alike: what only the observed
  side has is listed again for each repetition, and of repeated devices the first desired one
  is compared with the last observed one.
* `misaligned_report` — how often each device, and each key of a device that is there once on
  both sides, is listed as being on one side only; and that the report is turned round with
  the two sides when device names are distinct and no orphaned key is repeated.
-/

namespace FabricFootprint

/-! ## Plain names -/

/-- A name without the marks that the text of an orphan is built with. -/
def PlainName (name : String) : Prop :=
  ∀ c ∈ name.toList, c ≠ '/' ∧ c ≠ ' ' ∧ c ≠ '(' ∧ c ≠ ')'

instance (name : String) : Decidable (PlainName name) := List.decidableBAll _ _

/-- The names of the devices and of the keys are plain. -/
def PlainNames (footprint : Footprint) : Prop :=
  ∀ d ∈ footprint, PlainName d.device ∧ ∀ entry ∈ d.entries, PlainName entry.key

instance (footprint : Footprint) : Decidable (PlainNames footprint) := List.decidableBAll _ _

/-- The text begins with a mark that no plain name has. -/
def Marked (text : String) : Prop :=
  ∃ mark rest, text.toList = mark :: rest ∧ (mark = '/' ∨ mark = ' ')

/-- Plain names end where the first mark stands. -/
theorem append_inj_of_plain {a b s t : String} (ha : PlainName a) (hb : PlainName b)
    (hs : Marked s) (ht : Marked t) (h : a ++ s = b ++ t) : a = b ∧ s = t := by
  have hmark {c : Char} (hc : c = '/' ∨ c = ' ') :
      ¬(c ≠ '/' ∧ c ≠ ' ' ∧ c ≠ '(' ∧ c ≠ ')') := by
    rcases hc with rfl | rfl <;> simp
  obtain ⟨x, xs, hx, hmarkx⟩ := hs
  obtain ⟨y, ys, hy, hmarky⟩ := ht
  have hchars : a.toList ++ x :: xs = b.toList ++ y :: ys := by
    rw [← hx, ← hy, ← String.toList_append, ← String.toList_append, h]
  have hname : a.toList = b.toList := by
    rcases List.append_eq_append_iff.1 hchars with ⟨part, hb', hx'⟩ | ⟨part, ha', hy'⟩
    · cases part with
      | nil => simpa using hb'.symm
      | cons c part =>
        obtain ⟨rfl, -⟩ := List.cons.inj hx'
        exact absurd (hb x (by simp [hb'])) (hmark hmarkx)
    · cases part with
      | nil => simpa using ha'
      | cons c part =>
        obtain ⟨rfl, -⟩ := List.cons.inj hy'
        exact absurd (ha y (by simp [ha'])) (hmark hmarky)
  obtain rfl := String.toList_inj.1 hname
  exact ⟨rfl, (String.append_right_inj a).1 h⟩

/-! ## Texts of orphans -/

/-- How the text of an orphan ends. -/
def OrphanCause.text : OrphanCause → String
  | .only side => " (" ++ side.name ++ " only)"
  | .duplicate what side => " (duplicate " ++ what ++ " in " ++ side.name ++ ")"

theorem OrphanCause.marked_text (cause : OrphanCause) : Marked cause.text := by
  cases cause <;> exact ⟨' ', _, by simp [OrphanCause.text]; rfl, .inr rfl⟩

theorem marked_key (key rest : String) : Marked ("/" ++ key ++ rest) :=
  ⟨'/', _, by simp; rfl, .inl rfl⟩

theorem OrphanCause.text_eq_only_iff {cause : OrphanCause} {side : Side} :
    cause.text = (OrphanCause.only side).text ↔ cause = .only side := by
  refine ⟨fun h => ?_, fun h => congrArg OrphanCause.text h⟩
  cases cause with
  | only other => cases other <;> cases side <;> simp_all [OrphanCause.text, Side.name]
  | duplicate what other =>
    have hchars := congrArg String.toList h
    simp only [OrphanCause.text, String.toList_append] at hchars
    cases side <;> simp [Side.name] at hchars

namespace Orphan

theorem text_none (device : String) (cause : OrphanCause) :
    text ⟨device, none, cause⟩ = device ++ cause.text := by
  cases cause <;> simp [text, OrphanCause.text, String.append_assoc]

theorem text_some (device key : String) (cause : OrphanCause) :
    text ⟨device, some key, cause⟩ = device ++ ("/" ++ key ++ cause.text) := by
  cases cause <;> simp [text, OrphanCause.text, String.append_assoc]

/-- The names that an orphan is made of are plain. -/
def Plain (o : Orphan) : Prop := PlainName o.device ∧ ∀ key ∈ o.key, PlainName key

/-- A text that says that one side lacks a plain name is the text of one orphan only. -/
theorem text_eq_only_iff {o other : Orphan} (ho : o.Plain) (hother : other.Plain)
    {side : Side} (hcause : other.cause = .only side) : o.text = other.text ↔ o = other := by
  refine ⟨fun h => ?_, fun h => congrArg text h⟩
  obtain ⟨device, key, cause⟩ := o
  obtain ⟨device', key', cause'⟩ := other
  obtain rfl : cause' = .only side := hcause
  -- A space ends the name of a device, and a slash that of a device with a key.
  have hmarks {c : OrphanCause} {k rest : String} : c.text ≠ "/" ++ k ++ rest := by
    intro heq
    have hchars := congrArg String.toList heq
    cases c <;> simp [OrphanCause.text] at hchars
  cases key with
  | none =>
    cases key' with
    | none =>
      rw [text_none, text_none] at h
      obtain ⟨rfl, hc⟩ :=
        append_inj_of_plain ho.1 hother.1 cause.marked_text (OrphanCause.marked_text _) h
      rw [OrphanCause.text_eq_only_iff.1 hc]
    | some key' =>
      rw [text_none, text_some] at h
      exact absurd
        (append_inj_of_plain ho.1 hother.1 cause.marked_text (marked_key _ _) h).2 hmarks
  | some key =>
    cases key' with
    | none =>
      rw [text_some, text_none] at h
      exact absurd
        (append_inj_of_plain ho.1 hother.1 (marked_key _ _)
          (OrphanCause.marked_text _) h).2.symm hmarks
    | some key' =>
      rw [text_some, text_some] at h
      obtain ⟨rfl, hrest⟩ :=
        append_inj_of_plain ho.1 hother.1 (marked_key _ _) (marked_key _ _) h
      rw [String.append_assoc, String.append_assoc, String.append_right_inj] at hrest
      obtain ⟨rfl, hc⟩ :=
        append_inj_of_plain (ho.2 key rfl) (hother.2 key' rfl) cause.marked_text
          (OrphanCause.marked_text _) hrest
      rw [OrphanCause.text_eq_only_iff.1 hc]

end Orphan

/-! ## Reports -/

section Reports

variable {desired observed : Footprint}

/-- The orphans of footprints with plain names are plain. -/
theorem plain_of_mem_orphans (hdesired : PlainNames desired) (hobserved : PlainNames observed)
    {o : Orphan} (h : o ∈ orphans desired observed) : o.Plain := by
  have hdevice (device : String) (hmem : device ∈ desired.map DeviceFootprint.device ∨
      device ∈ observed.map DeviceFootprint.device) : PlainName device := by
    rcases hmem with hmem | hmem
    · obtain ⟨d, hd, rfl⟩ := List.mem_map.1 hmem
      exact (hdesired d hd).1
    · obtain ⟨d, hd, rfl⟩ := List.mem_map.1 hmem
      exact (hobserved d hd).1
  obtain ⟨device, key, cause⟩ := o
  cases key with
  | none =>
    have hpos : 0 < (orphans desired observed).count (deviceOrphan device cause) :=
      List.count_pos_iff.2 h
    rw [count_orphans_device] at hpos
    exact ⟨hdevice device (mem_of_timesListed_pos hpos), by simp⟩
  | some key =>
    have hpos : 0 < (orphans desired observed).count (keyOrphan device key cause) :=
      List.count_pos_iff.2 h
    rw [count_orphans_key] at hpos
    cases hwant : firstNamed? desired device with
    | none => simp [hwant] at hpos
    | some want =>
      cases hfound : lastNamed? DeviceFootprint.device observed device with
      | none => simp [hwant, hfound] at hpos
      | some found =>
        rw [hwant, hfound] at hpos
        have hmem : want ∈ desired := List.mem_of_find?_eq_some hwant
        have hmem' : found ∈ observed := List.mem_reverse.1 (List.mem_of_find?_eq_some hfound)
        have hname : want.device = device := by simpa using List.find?_some hwant
        have hkey : PlainName key := by
          rcases mem_of_timesListed_pos hpos with hkey | hkey
          · obtain ⟨entry, hentry, rfl⟩ := List.mem_map.1 hkey
            exact (hdesired want hmem).2 entry hentry
          · obtain ⟨entry, hentry, rfl⟩ := List.mem_map.1 hkey
            exact (hobserved found hmem').2 entry hentry
        exact ⟨hname ▸ (hdesired want hmem).1, by simpa using hkey⟩

/-- The text that says that one side lacks a plain name is listed as often as its orphan. -/
theorem count_text_only (hdesired : PlainNames desired) (hobserved : PlainNames observed)
    {o : Orphan} (ho : o.Plain) {side : Side} (hcause : o.cause = .only side) :
    ((orphans desired observed).map Orphan.text).count o.text =
      (orphans desired observed).count o := by
  have hplain : ∀ other ∈ orphans desired observed, other.Plain :=
    fun _ h => plain_of_mem_orphans hdesired hobserved h
  generalize orphans desired observed = listed at hplain ⊢
  induction listed with
  | nil => rfl
  | cons first rest ih =>
    have hfirst : first.text = o.text ↔ first = o :=
      Orphan.text_eq_only_iff (hplain first List.mem_cons_self) ho hcause
    have hrest := ih fun other h => hplain other (List.mem_cons_of_mem _ h)
    rw [List.map_cons, List.count_cons, List.count_cons, hrest]
    simp [hfirst]

/-- A device that is there once is found by its name. -/
theorem find?_of_count_eq_one {footprint : Footprint} {d : DeviceFootprint}
    (hd : d ∈ footprint)
    (hcount : (footprint.map DeviceFootprint.device).count d.device = 1) :
    (footprint.find? fun x => x.device == d.device) = some d := by
  induction footprint with
  | nil => simp at hd
  | cons x rest ih =>
    by_cases hx : x.device = d.device
    · have hnone : d.device ∉ rest.map DeviceFootprint.device := by
        rw [← List.count_eq_zero]
        simpa [List.count_cons, hx] using hcount
      have hhead : d = x := by
        rcases List.mem_cons.1 hd with heq | hmem
        · exact heq
        · exact absurd (List.mem_map_of_mem hmem) hnone
      simp [hhead]
    · have hrest : d ∈ rest := by
        rcases List.mem_cons.1 hd with rfl | hmem
        · exact absurd rfl hx
        · exact hmem
      simpa [hx] using ih hrest (by simpa [List.count_cons, hx] using hcount)

/-- Such a device is the first and the last one of its name. -/
theorem named_of_count_eq_one {footprint : Footprint} {d : DeviceFootprint}
    (hd : d ∈ footprint)
    (hcount : (footprint.map DeviceFootprint.device).count d.device = 1) :
    firstNamed? footprint d.device = some d ∧
      lastNamed? DeviceFootprint.device footprint d.device = some d := by
  have hreversed : (footprint.reverse.map DeviceFootprint.device).count d.device = 1 := by
    rw [List.map_reverse, List.count_reverse, hcount]
  exact ⟨find?_of_count_eq_one hd hcount,
    find?_of_count_eq_one (List.mem_reverse.2 hd) hreversed⟩

/-- How often the report says of a device that one side lacks it. -/
theorem count_report_device (hdesired : PlainNames desired) (hobserved : PlainNames observed)
    {device : String} (hplain : PlainName device) (side : Side) :
    ((orphans desired observed).map Orphan.text).count
      (deviceOrphan device (.only side)).text =
      timesListed "device" (desired.map DeviceFootprint.device)
        (observed.map DeviceFootprint.device) device (.only side) := by
  rw [← count_orphans_device]
  exact count_text_only hdesired hobserved ⟨hplain, by simp [deviceOrphan]⟩ rfl

/-- How often the report says of a key that one side lacks it, for a device that is there once
on each side: its first entry on one side and its last one on the other are the only ones. -/
theorem count_report_key (hdesired : PlainNames desired) (hobserved : PlainNames observed)
    {want found : DeviceFootprint} (hwant : want ∈ desired) (hfound : found ∈ observed)
    (hname : found.device = want.device)
    (honce : (desired.map DeviceFootprint.device).count want.device = 1)
    (honce' : (observed.map DeviceFootprint.device).count found.device = 1)
    {key : String} (hplain : PlainName key) (side : Side) :
    ((orphans desired observed).map Orphan.text).count
        (keyOrphan want.device key (.only side)).text =
      timesListed "key" (want.entries.map DataEntry.key) (found.entries.map DataEntry.key) key
        (.only side) := by
  have hfirst := (named_of_count_eq_one hwant honce).1
  have hlast := (named_of_count_eq_one hfound honce').2
  rw [hname] at hlast
  have hcount := count_orphans_key desired observed want.device key (.only side)
  rw [hfirst, hlast] at hcount
  have hkeyPlain : (keyOrphan want.device key (.only side)).Plain :=
    ⟨(hdesired want hwant).1, by simpa [keyOrphan] using hplain⟩
  exact (count_text_only hdesired hobserved hkeyPlain rfl).trans hcount

theorem diffFootprints_eq_error_iff {e : Incident} :
    diffFootprints desired observed = .error e ↔
      orphans desired observed ≠ [] ∧
        e = { Incident.ofFault
            (.footprintMisaligned ((orphans desired observed).map Orphan.text)) with
          operation := some diffOperation } := by
  unfold diffFootprints
  cases orphans desired observed with
  | nil => simp
  | cons first rest => simp [eq_comm]

/-- A comparison fails with its sides exchanged when it fails. -/
theorem exists_error_exchanged (h : orphans desired observed ≠ []) :
    ∃ e, diffFootprints observed desired = .error e ∧
      e.details = some ((orphans observed desired).map Orphan.text) := by
  have hswapped : orphans observed desired ≠ [] := by
    rw [ne_eq, orphans_eq_nil_iff] at h ⊢
    exact fun haligned => h haligned.symm
  exact ⟨_, diffFootprints_eq_error_iff.2 ⟨hswapped, rfl⟩, rfl⟩

end Reports

/-- The two sides are not treated alike. A device that only the observed side has, twice, is
listed twice as such, and so is a key; on the desired side each is listed once. Of a device
that is there twice on one side only one is compared: the last one if it is observed, the
first one if it is desired. -/
theorem misaligned_report_repeats :
    let device (name : String) (keys : List String) : DeviceFootprint :=
      ⟨name, keys.map fun key => ⟨key, FieldMap.empty⟩⟩
    let report (desired observed : Footprint) : Option (List String) :=
      match diffFootprints desired observed with
      | .ok _ => none
      | .error e => e.details
    let twice : Footprint := [device "leaf-2" [], device "leaf-2" []]
    let keys : Footprint := [device "leaf-1" ["100", "100"]]
    let apart : Footprint := [device "leaf-1" ["100"], device "leaf-1" ["200"]]
    (PlainNames twice ∧ PlainNames keys ∧ PlainNames apart) ∧
    report [] twice = some ["leaf-2 (duplicate device in observed)", "leaf-2 (observed only)",
      "leaf-2 (observed only)"] ∧
    report twice [] = some ["leaf-2 (duplicate device in desired)", "leaf-2 (desired only)"] ∧
    report [device "leaf-1" []] keys = some ["leaf-1/100 (duplicate key in observed)",
      "leaf-1/100 (observed only)", "leaf-1/100 (observed only)"] ∧
    report keys [device "leaf-1" []] = some ["leaf-1/100 (duplicate key in desired)",
      "leaf-1/100 (desired only)"] ∧
    report [device "leaf-1" ["100"]] apart = some ["leaf-1 (duplicate device in observed)",
      "leaf-1/100 (desired only)", "leaf-1/200 (observed only)"] ∧
    report apart [device "leaf-1" ["100"]] =
      some ["leaf-1 (duplicate device in desired)"] := by
  refine ⟨?_, rfl, rfl, rfl, rfl, rfl, rfl⟩
  decide

/-- What the report of two misaligned footprints with plain names lists. A device that only
the desired side has is listed as such once, however often it is there; one that only the
observed side has is listed as often as it is there. The same goes for the keys of a device
that is there once on each side; no other device or key is listed so. With the sides exchanged
the comparison fails as well. It lists the same orphans as often, with their sides exchanged,
when the devices of each side have distinct names and a key that only one of two devices of a
name has is there once. -/
theorem misaligned_report {desired observed : Footprint} (hdesired : PlainNames desired)
    (hobserved : PlainNames observed) {e : Incident}
    (h : diffFootprints desired observed = .error e) :
    let devices (footprint : Footprint) := footprint.map DeviceFootprint.device
    let keys (d : DeviceFootprint) := d.entries.map DataEntry.key
    let report := (orphans desired observed).map Orphan.text
    e.details = some report ∧
    (∀ device, PlainName device →
      report.count (device ++ " (desired only)") =
        (if device ∈ devices desired ∧ device ∉ devices observed then 1 else 0) ∧
      report.count (device ++ " (observed only)") =
        if device ∈ devices desired then 0 else (devices observed).count device) ∧
    (∀ want ∈ desired, ∀ found ∈ observed, found.device = want.device →
      (devices desired).count want.device = 1 → (devices observed).count found.device = 1 →
      ∀ key, PlainName key →
        report.count (want.device ++ "/" ++ key ++ " (desired only)") =
          (if key ∈ keys want ∧ key ∉ keys found then 1 else 0) ∧
        report.count (want.device ++ "/" ++ key ++ " (observed only)") =
          if key ∈ keys want then 0 else (keys found).count key) ∧
    ∃ e', diffFootprints observed desired = .error e' ∧
      ∃ exchanged, e'.details = some exchanged ∧
        (OrphansOnce desired observed →
          exchanged.Perm ((orphans desired observed).map fun o => o.exchanged.text)) := by
  intro devices keys report
  obtain ⟨hsome, rfl⟩ := diffFootprints_eq_error_iff.1 h
  refine ⟨rfl, fun device hplain => ⟨?_, ?_⟩,
    fun want hwant found hfound hname honce honce' key hplain => ⟨?_, ?_⟩, ?_⟩
  · have hcount := count_report_device hdesired hobserved hplain .desired
    rwa [deviceOrphan, Orphan.text_none] at hcount
  · have hcount := count_report_device hdesired hobserved hplain .observed
    rwa [deviceOrphan, Orphan.text_none] at hcount
  · have hcount :=
      count_report_key hdesired hobserved hwant hfound hname honce honce' hplain .desired
    rwa [keyOrphan, Orphan.text_some, ← String.append_assoc, ← String.append_assoc] at hcount
  · have hcount :=
      count_report_key hdesired hobserved hwant hfound hname honce honce' hplain .observed
    rwa [keyOrphan, Orphan.text_some, ← String.append_assoc, ← String.append_assoc] at hcount
  · obtain ⟨e', he', hdetails⟩ := exists_error_exchanged hsome
    refine ⟨e', he', _, hdetails, fun hunrepeated => ?_⟩
    have hperm := (perm_exchanged hunrepeated).map Orphan.text
    rwa [List.map_map] at hperm

/-- Two leaves, one of which has different keys on the two sides. The key that both sides have
is repeated on one of them, which turns round with the sides as everything else does. -/
theorem misaligned_report_leaves :
    let device (name : String) (keys : List String) : DeviceFootprint :=
      ⟨name, keys.map fun key => ⟨key, FieldMap.empty⟩⟩
    let desired : Footprint := [device "leaf-1" ["100", "300"], device "leaf-2" []]
    let observed : Footprint := [device "leaf-1" ["100", "200", "100"], device "leaf-3" []]
    PlainNames desired ∧ PlainNames observed ∧ OrphansOnce desired observed ∧
    (∃ e report, diffFootprints desired observed = .error e ∧ e.details = some report ∧
      report.count "leaf-2 (desired only)" = 1 ∧ report.count "leaf-3 (observed only)" = 1 ∧
      report.count "leaf-1/300 (desired only)" = 1 ∧
      report.count "leaf-1/200 (observed only)" = 1 ∧
      report.count "leaf-1/100 (observed only)" = 0) ∧
    ∃ e exchanged, diffFootprints observed desired = .error e ∧ e.details = some exchanged ∧
      exchanged.Perm ["leaf-1/100 (duplicate key in desired)", "leaf-1/300 (observed only)",
        "leaf-1/200 (desired only)", "leaf-2 (observed only)", "leaf-3 (desired only)"] := by
  intro device desired observed
  have hdesired : PlainNames desired := by decide
  have hobserved : PlainNames observed := by decide
  have hfails : orphans desired observed ≠ [] := by decide
  have honce : OrphansOnce desired observed := by
    refine ⟨by decide, by decide, fun want hwant found hfound hname n => ?_⟩
    have hmem : want = device "leaf-1" ["100", "300"] ∧
        found = device "leaf-1" ["100", "200", "100"] := by
      simp only [desired, observed, List.mem_cons, List.not_mem_nil, or_false] at hwant hfound
      rcases hwant with rfl | rfl <;> rcases hfound with rfl | rfl <;> simp_all [device]
    obtain ⟨rfl, rfl⟩ := hmem
    refine ⟨fun _ => List.nodup_iff_count_le_one.1 (by decide) n, fun hn => ?_⟩
    have hne : "100" ≠ n := fun heq => hn (heq ▸ by decide)
    by_cases hother : "200" = n <;> simp [device, hne, hother]
  obtain ⟨hdetails, hdevices, hkeys, e', he', exchanged, hexchanged, hperm⟩ :=
    misaligned_report hdesired hobserved (diffFootprints_eq_error_iff.2 ⟨hfails, rfl⟩)
  have hleaf := hkeys _ List.mem_cons_self _ List.mem_cons_self rfl (by decide) (by decide)
  refine ⟨hdesired, hobserved, honce,
    ⟨_, _, diffFootprints_eq_error_iff.2 ⟨hfails, rfl⟩, hdetails, ?_, ?_, ?_, ?_, ?_⟩,
    e', exchanged, he', hexchanged, hperm honce⟩
  · exact (hdevices "leaf-2" (by decide)).1
  · exact (hdevices "leaf-3" (by decide)).2
  · exact (hleaf "300" (by decide)).1
  · exact (hleaf "200" (by decide)).2
  · exact (hleaf "100" (by decide)).2

end FabricFootprint
