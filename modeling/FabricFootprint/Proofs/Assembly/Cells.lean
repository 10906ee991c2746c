import FabricFootprint.Proofs.Assembly.Report
import Mathlib.Data.List.Basic

/-!
FabricFootprint.Proofs.Assembly.Cells — the cells of a batch, and how a report splits them.

A cell is a device together with a key, both with their positions, so that cells stay apart
where device names or keys repeat.

* `cells` — the cells of a batch: device by device, and for each device key by key.
* `succeeded`, `failed` — the cells whose extraction succeeded, or failed, with what it gave.
* `split_perm` — every cell is in exactly one of the two, once.
* `cellEntries_report`, `failures_report`, `diagnostics_report` — the three parts of a report
  are the two lists of cells in the form that reports keep.
-/

namespace FabricFootprint

/-- A device and a key of a batch, with their positions in the store and in the key list. -/
structure Cell where
  devicePosition : Nat
  keyPosition : Nat
  device : DeviceChunks
  key : String

/-- A cell comes before another: its device does, or for one device its key does. -/
def Cell.Before (a b : Cell) : Prop :=
  a.devicePosition < b.devicePosition ∨
    a.devicePosition = b.devicePosition ∧ a.keyPosition < b.keyPosition

/-- The cells of a batch, device by device and for each device key by key. -/
def cells (store : ChunkStore) (keys : List String) : List Cell :=
  store.devices.zipIdx.flatMap fun d => keys.zipIdx.map fun k => ⟨d.2, k.2, d.1, k.1⟩

section Batch

variable {store : ChunkStore} {keys : List String}

/-- A cell of a batch is a position of its store together with a position of its key list. -/
theorem mem_cells {cell : Cell} : cell ∈ cells store keys ↔
    store.devices[cell.devicePosition]? = some cell.device ∧
      keys[cell.keyPosition]? = some cell.key := by
  obtain ⟨i, j, device, key⟩ := cell
  simp only [cells, List.mem_flatMap, List.mem_map, Cell.mk.injEq]
  constructor
  · intro hyp
    obtain ⟨d, hd, k, hk, rfl, rfl, rfl, rfl⟩ := hyp
    exact ⟨List.mem_zipIdx_iff_getElem?.1 hd, List.mem_zipIdx_iff_getElem?.1 hk⟩
  · rintro ⟨hd, hk⟩
    exact ⟨(device, i), List.mem_zipIdx_iff_getElem?.2 hd, (key, j),
      List.mem_zipIdx_iff_getElem?.2 hk, rfl, rfl, rfl, rfl⟩

/-- Positions increase along a numbered list. -/
theorem pairwise_zipIdx {α : Type} (xs : List α) :
    xs.zipIdx.Pairwise fun a b => a.2 < b.2 := by
  have h : (xs.zipIdx.map Prod.snd).Pairwise (· < ·) := by
    rw [List.zipIdx_map_snd]
    exact List.pairwise_lt_range'
  exact List.pairwise_map.1 h

/-- Cells come in order, hence each one once. -/
theorem cells_pairwise : (cells store keys).Pairwise Cell.Before := by
  rw [cells, List.pairwise_flatMap]
  constructor
  · intro d _
    rw [List.pairwise_map]
    exact (pairwise_zipIdx keys).imp fun h => .inr ⟨rfl, h⟩
  · refine (pairwise_zipIdx store.devices).imp fun {a b} h => ?_
    intro x hx y hy
    obtain ⟨k, _, rfl⟩ := List.mem_map.1 hx
    obtain ⟨l, _, rfl⟩ := List.mem_map.1 hy
    exact .inl h

/-- A list passed through by position is passed through by value. -/
theorem flatMap_zipIdx_fst {α β : Type} (xs : List α) (f : α → List β) :
    (xs.zipIdx.flatMap fun x => f x.1) = xs.flatMap f := by
  calc (xs.zipIdx.flatMap fun x => f x.1)
      = (xs.zipIdx.map Prod.fst).flatMap f := by rw [List.flatMap_map]
    _ = xs.flatMap f := by rw [List.zipIdx_map_fst]

/-- Going through the cells is going through the devices, and for each through the keys. -/
theorem flatMap_cells {β : Type} (g : Nat → DeviceChunks → String → List β) :
    (cells store keys).flatMap (fun cell => g cell.devicePosition cell.device cell.key) =
      store.devices.zipIdx.flatMap fun d => keys.flatMap (g d.2 d.1) := by
  rw [cells, List.flatMap_assoc]
  congr 1
  funext d
  calc (keys.zipIdx.map fun k => (⟨d.2, k.2, d.1, k.1⟩ : Cell)).flatMap
        (fun cell => g cell.devicePosition cell.device cell.key)
      = keys.zipIdx.flatMap (fun k => g d.2 d.1 k.1) := by rw [List.flatMap_map]
    _ = keys.flatMap (g d.2 d.1) := flatMap_zipIdx_fst keys _

end Batch

/-! ## The split -/

section Split

variable (store : ChunkStore) (keys : List String) (rules : RuleSet)
  (registry : ConversionRegistry)

/-- What extracting the key of a cell gives. -/
def Cell.result (cell : Cell) : Except Incident Extraction :=
  extract cell.key cell.device rules registry

/-- The cell of a successful extraction, with what it gave. -/
def Cell.success? (cell : Cell) : Option (Cell × Extraction) :=
  (cell.result rules registry).toOption.map fun x => (cell, x)

/-- The cell of a failed extraction, with the error. -/
def Cell.failure? (cell : Cell) : Option (Cell × Incident) :=
  match cell.result rules registry with
  | .ok _ => none
  | .error e => some (cell, e)

/-- The cells whose extraction succeeded, with what it gave. -/
def succeeded : List (Cell × Extraction) :=
  (cells store keys).filterMap (Cell.success? rules registry)

/-- The cells whose extraction failed, with the error. -/
def failed : List (Cell × Incident) :=
  (cells store keys).filterMap (Cell.failure? rules registry)

variable {store keys rules registry}

theorem result_of_mem_succeeded {s : Cell × Extraction}
    (h : s ∈ succeeded store keys rules registry) : s.1.result rules registry = .ok s.2 := by
  obtain ⟨cell, _, hsuccess⟩ := List.mem_filterMap.1 h
  unfold Cell.success? at hsuccess
  cases hr : cell.result rules registry with
  | ok x =>
    rw [hr] at hsuccess
    cases hsuccess
    exact hr
  | error e =>
    rw [hr] at hsuccess
    exact nomatch hsuccess

theorem result_of_mem_failed {f : Cell × Incident}
    (h : f ∈ failed store keys rules registry) :
    f.1.result rules registry = .error f.2 := by
  obtain ⟨cell, _, hfailure⟩ := List.mem_filterMap.1 h
  unfold Cell.failure? at hfailure
  split at hfailure
  · exact nomatch hfailure
  · next e he =>
    cases hfailure
    exact he

theorem map_fst_succeeded : (succeeded store keys rules registry).map Prod.fst =
    (cells store keys).filter fun cell => (cell.result rules registry).isOk := by
  rw [succeeded, List.map_filterMap, ← List.filterMap_eq_filter]
  congr 1
  funext cell
  show (cell.success? rules registry).map Prod.fst =
    if (cell.result rules registry).isOk = true then some cell else none
  unfold Cell.success?
  cases cell.result rules registry <;> rfl

theorem map_fst_failed : (failed store keys rules registry).map Prod.fst =
    (cells store keys).filter fun cell => !(cell.result rules registry).isOk := by
  rw [failed, List.map_filterMap, ← List.filterMap_eq_filter]
  congr 1
  funext cell
  show (cell.failure? rules registry).map Prod.fst =
    if (!(cell.result rules registry).isOk) = true then some cell else none
  unfold Cell.failure?
  cases cell.result rules registry <;> rfl

/-- Every cell is among the successes or among the failures, and among them once. -/
theorem split_perm : ((succeeded store keys rules registry).map Prod.fst ++
    (failed store keys rules registry).map Prod.fst).Perm (cells store keys) := by
  rw [map_fst_succeeded, map_fst_failed]
  exact List.filter_append_perm _ _

/-! ## The report of the split -/

/-- What holds nothing about a failed cell goes through the successes alone. -/
theorem flatMap_succeeded {β : Type} (f : Cell → Except Incident Extraction → List β)
    (hf : ∀ cell e, f cell (.error e) = []) :
    (cells store keys).flatMap (fun cell => f cell (cell.result rules registry)) =
      (succeeded store keys rules registry).flatMap fun s => f s.1 (.ok s.2) := by
  rw [succeeded]
  induction cells store keys with
  | nil => rfl
  | cons cell rest ih =>
    rw [List.filterMap_cons, List.flatMap_cons, ih]
    unfold Cell.success?
    cases cell.result rules registry with
    | ok x => rfl
    | error e =>
      rw [hf cell e]
      rfl

/-- What holds nothing about a successful cell goes through the failures alone. -/
theorem flatMap_failed {β : Type} (f : Cell → Except Incident Extraction → List β)
    (hf : ∀ cell x, f cell (.ok x) = []) :
    (cells store keys).flatMap (fun cell => f cell (cell.result rules registry)) =
      (failed store keys rules registry).flatMap fun s => f s.1 (.error s.2) := by
  rw [failed]
  induction cells store keys with
  | nil => rfl
  | cons cell rest ih =>
    rw [List.filterMap_cons, List.flatMap_cons, ih]
    unfold Cell.failure?
    cases cell.result rules registry with
    | ok x =>
      rw [hf cell x]
      rfl
    | error e => rfl

/-- The entries of a footprint, each with the position of its device. -/
def cellEntries (footprint : Footprint) : List (Nat × DataEntry) :=
  footprint.zipIdx.flatMap fun d => d.1.entries.map fun entry => (d.2, entry)

variable (store keys rules registry)

/-- The entries of the report are the successes, each at the position of its device. -/
theorem cellEntries_report :
    cellEntries (assemble store keys rules registry).report.footprint =
      (succeeded store keys rules registry).map fun s =>
        (s.1.devicePosition, ⟨s.1.key, s.2.data⟩) := by
  rw [List.map_eq_flatMap, cellEntries, report_footprint, List.zipIdx_map, List.flatMap_map]
  refine Eq.trans ?_ (flatMap_succeeded (fun cell r =>
    (reportedData? cell.key r).toList.map fun entry =>
      (cell.devicePosition, entry)) fun _ _ => rfl)
  refine Eq.trans ?_ (flatMap_cells fun i device key =>
    (reportedData? key (extract key device rules registry)).toList.map fun entry =>
      (i, entry)).symm
  congr 1
  funext d
  rw [Prod.map_fst, Prod.map_snd, id_eq, List.filterMap_eq_flatMap_toList, List.map_flatMap]

/-- The failures of the report are the failed cells. -/
theorem failures_report : (assemble store keys rules registry).report.failures =
    (failed store keys rules registry).map fun f =>
      ⟨f.1.device.name, f.1.key, Diagnostic.ofIncident f.2⟩ := by
  rw [List.map_eq_flatMap, report_failures, ← flatMap_zipIdx_fst]
  refine Eq.trans ?_ (flatMap_failed (fun cell r =>
    (reportedFailure? cell.device.name cell.key r).toList) fun _ _ => rfl)
  refine Eq.trans ?_ (flatMap_cells fun _ device key =>
    (reportedFailure? device.name key (extract key device rules registry)).toList).symm
  simp only [List.filterMap_eq_flatMap_toList]

/-- The diagnostics of the report are the issues of the successes. -/
theorem diagnostics_report : (assemble store keys rules registry).report.diagnostics =
    (succeeded store keys rules registry).flatMap fun s =>
      s.2.issues.map Diagnostic.ofIncident := by
  rw [report_diagnostics, ← flatMap_zipIdx_fst]
  refine Eq.trans ?_ (flatMap_succeeded (fun _ r =>
    (reportedIssues r).map Diagnostic.ofIncident) fun _ _ => rfl)
  exact (flatMap_cells fun _ device key =>
    (reportedIssues (extract key device rules registry)).map Diagnostic.ofIncident).symm

end Split

end FabricFootprint
