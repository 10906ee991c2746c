import FabricFootprint.Document.Reports
import FabricFootprint.Proofs.Document.Node

/-!
FabricFootprint.Proofs.Document.Reports — reports are read back from the
trees they are written as.

The format has to give back texts, truth values, counts, and the values that `kept` holds of.
Two things are asked of a report in return, and nothing else:

* `Footprint.Keeps` — its data hold such values only;
* `Classification.IsNamed` — each of its classifications is the one that its text names.

`ProcessReport.decode?_encode` is assembled from one such lemma for each part of a report.
-/

namespace FabricFootprint

/-- The data of a footprint hold only values that `kept` holds of. -/
def Footprint.Keeps (kept : Value → Prop) (footprint : Footprint) : Prop :=
  ∀ d ∈ footprint, ∀ entry ∈ d.entries, ∀ field v, entry.data.get? field = some v → kept v

/-- A classification is the one that its text names. -/
def Classification.IsNamed (c : Classification) : Prop := ofText c.text = c

/-- All members of a diagnostic, with their nodes as far as they have one. -/
def Diagnostic.table (d : Diagnostic) : List (String × Option (Node Datum)) :=
  [("code", some (Node.ofText d.code)), ("message", some (Node.ofText d.message)),
    ("device", d.device.map Node.ofText), ("key", d.key.map Node.ofText),
    ("rule_index", d.rule.map Node.ofCount)]

theorem Diagnostic.encode_eq (d : Diagnostic) :
    d.encode = Node.ofMembers (Node.present d.table) := by
  obtain ⟨_, _, device, key, rule⟩ := d
  cases device <;> cases key <;> cases rule <;> rfl

section Parts

open Node

variable {σ : Type} [Scalar σ] {write : Datum → σ} {kept : Value → Prop}
  (h : Rereads write kept)
include h

/-! ## Footprints -/

theorem DataEntry.decode?_encode {entry : DataEntry}
    (hkept : ∀ field v, entry.data.get? field = some v → kept v) :
    decode? ((encode entry).map write) = some entry := by
  rw [decode?, encode]
  refine Option.bind_eq_some_iff.2
    ⟨_, fields?_ofMembers (by simp [shape]) (by simp) (by simp [shape]), ?_⟩
  refine Option.bind_eq_some_iff.2 ⟨_, required_written rfl (h.text?_ofText entry.key), ?_⟩
  exact Option.bind_eq_some_iff.2 ⟨_, required_written rfl (h.values?_ofRecord hkept), rfl⟩

theorem DeviceFootprint.decode?_encode {d : DeviceFootprint}
    (hkept : ∀ entry ∈ d.entries, ∀ field v, entry.data.get? field = some v → kept v) :
    decode? ((encode d).map write) = some d := by
  have hentries :=
    items?_ofItems fun entry hentry => DataEntry.decode?_encode h (hkept entry hentry)
  rw [decode?, encode]
  refine Option.bind_eq_some_iff.2
    ⟨_, fields?_ofMembers (by simp [shape]) (by simp) (by simp [shape]), ?_⟩
  refine Option.bind_eq_some_iff.2 ⟨_, required_written rfl (h.text?_ofText d.device), ?_⟩
  exact Option.bind_eq_some_iff.2 ⟨_, withDefault_written rfl hentries, rfl⟩

theorem Footprint.decode?_encode {footprint : Footprint} (hkept : footprint.Keeps kept) :
    decode? ((encode footprint).map write) = some footprint :=
  items?_ofItems fun d hd => DeviceFootprint.decode?_encode h (hkept d hd)

/-! ## Diagnostics -/

/-- Each of the three optional members is written or not; an absent one is found nowhere,
whichever of the others are written. -/
theorem Diagnostic.decode?_encode (d : Diagnostic) :
    decode? ((encode d).map write) = some d := by
  have hdistinct : (d.table.map Prod.fst).Nodup := by simp [table]
  have found {name : String} {node : Option (Node Datum)}
      (hname : d.table.lookup name = some node) : (present d.table).lookup name = node :=
    lookup_present hdistinct hname
  rw [decode?, encode_eq]
  refine Option.bind_eq_some_iff.2
    ⟨_, fields?_ofMembers (by simp [shape]) (nodup_present hdistinct)
      (known_present (by simp [table, shape])), ?_⟩
  refine Option.bind_eq_some_iff.2 ⟨_,
    required_written (found rfl) (h.text?_ofText d.code), ?_⟩
  refine Option.bind_eq_some_iff.2 ⟨_,
    required_written (found rfl) (h.text?_ofText d.message), ?_⟩
  refine Option.bind_eq_some_iff.2
    ⟨_, optional_written (found rfl) h.isNull_ofText h.text?_ofText, ?_⟩
  refine Option.bind_eq_some_iff.2
    ⟨_, optional_written (found rfl) h.isNull_ofText h.text?_ofText, ?_⟩
  exact Option.bind_eq_some_iff.2
    ⟨_, optional_written (found rfl) h.isNull_ofCount h.count?_ofCount, rfl⟩

theorem DeviceFailure.decode?_encode (f : DeviceFailure) :
    decode? ((encode f).map write) = some f := by
  rw [decode?, encode]
  refine Option.bind_eq_some_iff.2
    ⟨_, fields?_ofMembers (by simp [shape]) (by simp) (by simp [shape]), ?_⟩
  refine Option.bind_eq_some_iff.2 ⟨_, required_written rfl (h.text?_ofText f.device), ?_⟩
  refine Option.bind_eq_some_iff.2 ⟨_, required_written rfl (h.text?_ofText f.key), ?_⟩
  exact Option.bind_eq_some_iff.2 ⟨_,
    required_written rfl (Diagnostic.decode?_encode h f.error), rfl⟩

/-! ## Bitmaps and classifications -/

theorem ComponentBit.decode?_encode (b : ComponentBit) :
    decode? ((encode b).map write) = some b := by
  rw [decode?, encode]
  refine Option.bind_eq_some_iff.2
    ⟨_, fields?_ofMembers (by simp [shape]) (by simp) (by simp [shape]), ?_⟩
  refine Option.bind_eq_some_iff.2 ⟨_, required_written rfl (h.text?_ofText b.name), ?_⟩
  exact Option.bind_eq_some_iff.2 ⟨_, required_written rfl (h.bool?_ofBool b.value), rfl⟩

theorem Bitmap.decode?_encode (bitmap : Bitmap) :
    decode? ((encode bitmap).map write) = some bitmap :=
  items?_ofItems fun b _ => ComponentBit.decode?_encode h b

theorem ServiceLayout.decode?_encode (layout : ServiceLayout) :
    decode? ((encode layout).map write) = some layout := by
  rw [decode?, encode]
  refine Option.bind_eq_some_iff.2
    ⟨_, fields?_ofMembers (by simp [shape]) (by simp) (by simp [shape]), ?_⟩
  refine Option.bind_eq_some_iff.2 ⟨_, required_written rfl (h.text?_ofText layout.key), ?_⟩
  exact Option.bind_eq_some_iff.2 ⟨_,
    required_written rfl (Bitmap.decode?_encode h layout.bitmap), rfl⟩

theorem DeviceLayouts.decode?_encode (d : DeviceLayouts) :
    decode? ((encode d).map write) = some d := by
  have hlayouts := items?_ofItems fun layout (_ : layout ∈ d.layouts) =>
    ServiceLayout.decode?_encode h layout
  rw [decode?, encode]
  refine Option.bind_eq_some_iff.2
    ⟨_, fields?_ofMembers (by simp [shape]) (by simp) (by simp [shape]), ?_⟩
  refine Option.bind_eq_some_iff.2 ⟨_, required_written rfl (h.text?_ofText d.device), ?_⟩
  exact Option.bind_eq_some_iff.2 ⟨_, withDefault_written rfl hlayouts, rfl⟩

theorem Classification.decode?_encode {c : Classification} (hnamed : c.IsNamed) :
    decode? ((encode c).map write) = some c := by
  rw [decode?, encode, h.text?_ofText, Option.map_some]
  exact congrArg some hnamed

theorem ServiceTypeEntry.decode?_encode {entry : ServiceTypeEntry}
    (hnamed : entry.serviceType.IsNamed) :
    decode? ((encode entry).map write) = some entry := by
  rw [decode?, encode]
  refine Option.bind_eq_some_iff.2
    ⟨_, fields?_ofMembers (by simp [shape]) (by simp) (by simp [shape]), ?_⟩
  refine Option.bind_eq_some_iff.2 ⟨_, required_written rfl (h.text?_ofText entry.key), ?_⟩
  exact Option.bind_eq_some_iff.2 ⟨_,
    required_written rfl (Classification.decode?_encode h hnamed), rfl⟩

theorem DeviceServiceTypes.decode?_encode {d : DeviceServiceTypes}
    (hnamed : ∀ entry ∈ d.types, entry.serviceType.IsNamed) :
    decode? ((encode d).map write) = some d := by
  have htypes := items?_ofItems fun entry hentry =>
    ServiceTypeEntry.decode?_encode h (hnamed entry hentry)
  rw [decode?, encode]
  refine Option.bind_eq_some_iff.2
    ⟨_, fields?_ofMembers (by simp [shape]) (by simp) (by simp [shape]), ?_⟩
  refine Option.bind_eq_some_iff.2 ⟨_, required_written rfl (h.text?_ofText d.device), ?_⟩
  exact Option.bind_eq_some_iff.2 ⟨_, withDefault_written rfl htypes, rfl⟩

/-! ## Process reports -/

theorem ProcessedData.decode?_encode {d : ProcessedData} (hkept : d.footprint.Keeps kept)
    (hnamed : ∀ device ∈ d.types, ∀ entry ∈ device.types, entry.serviceType.IsNamed) :
    decode? ((encode d).map write) = some d := by
  have hlayouts := items?_ofItems fun device (_ : device ∈ d.layouts) =>
    DeviceLayouts.decode?_encode h device
  have htypes := items?_ofItems fun device hdevice =>
    DeviceServiceTypes.decode?_encode h (hnamed device hdevice)
  rw [decode?, encode]
  refine Option.bind_eq_some_iff.2
    ⟨_, fields?_ofMembers (by simp [shape]) (by simp) (by simp [shape]), ?_⟩
  refine Option.bind_eq_some_iff.2 ⟨_, required_written rfl (h.text?_ofText d.service), ?_⟩
  refine Option.bind_eq_some_iff.2 ⟨_, required_written rfl (h.texts?_ofTexts d.keys), ?_⟩
  refine Option.bind_eq_some_iff.2 ⟨_,
    required_written rfl (h.texts?_ofTexts d.components), ?_⟩
  refine Option.bind_eq_some_iff.2 ⟨_,
    required_written rfl (Footprint.decode?_encode h hkept), ?_⟩
  refine Option.bind_eq_some_iff.2 ⟨_, required_written rfl hlayouts, ?_⟩
  exact Option.bind_eq_some_iff.2 ⟨_, required_written rfl htypes, rfl⟩

theorem RunId.decode?_encode (run : RunId) : decode? ((encode run).map write) = some run := by
  rw [decode?, encode, h.text?_ofText, Option.map_some]

/-- A report is read back when its data are among the values that the format gives back and
its classifications are those that their texts name. -/
theorem ProcessReport.decode?_encode {report : ProcessReport}
    (hkept : report.processed.footprint.Keeps kept)
    (hnamed : ∀ device ∈ report.processed.types,
      ∀ entry ∈ device.types, entry.serviceType.IsNamed) :
    decode? ((encode report).map write) = some report := by
  have hfailures := items?_ofItems fun f (_ : f ∈ report.failures) =>
    DeviceFailure.decode?_encode h f
  have hdiagnostics := items?_ofItems fun d (_ : d ∈ report.diagnostics) =>
    Diagnostic.decode?_encode h d
  rw [decode?, encode]
  refine Option.bind_eq_some_iff.2
    ⟨_, fields?_ofMembers (by simp [shape]) (by simp) (by simp [shape]), ?_⟩
  refine Option.bind_eq_some_iff.2 ⟨_,
    required_written rfl (RunId.decode?_encode h report.run), ?_⟩
  refine Option.bind_eq_some_iff.2 ⟨_,
    required_written rfl (ProcessedData.decode?_encode h hkept hnamed), ?_⟩
  refine Option.bind_eq_some_iff.2 ⟨_, withDefault_written rfl hfailures, ?_⟩
  exact Option.bind_eq_some_iff.2 ⟨_, withDefault_written rfl hdiagnostics, rfl⟩

end Parts

end FabricFootprint
