import FabricFootprint.Footprint

/-!
FabricFootprint.Diff — the differences between a desired and an observed footprint.

* `diff` — what has to change, to be added and to be deleted to turn the observed
  data of one key into the desired data, gathered field by field; `diff_eq` says it
  of each part as a whole.
* `diffFootprints` — pairs devices by name and entries by key, in the desired order.
  Footprints that do not pair up are refused with every orphan: an entry on one side only, or
  one more entry of a name that its side has already.
* `changeReport` — which devices have a difference.
-/

namespace FabricFootprint

/-! ## One key -/

/-- The differences between the desired and the observed data of one key. -/
structure DiffEntry where
  key : String
  /-- Desired values of fields that are present with another value. -/
  toChange : Record
  /-- Desired values of fields that are missing. -/
  toAdd : Record
  /-- Observed values of fields that are not desired. -/
  toDelete : Record
  deriving DecidableEq, Inhabited

namespace DiffEntry

def start (key : String) : DiffEntry := ⟨key, FieldMap.empty, FieldMap.empty, FieldMap.empty⟩

/-- One more desired field. -/
def addDesired (observed : Record) (entry : DiffEntry) (field : String) (want : Value) :
    DiffEntry :=
  match observed.get? field with
  | some found =>
    if found = want then entry
    else { entry with toChange := entry.toChange.insert field want }
  | none => { entry with toAdd := entry.toAdd.insert field want }

/-- One more observed field. -/
def addObserved (desired : Record) (entry : DiffEntry) (field : String) (found : Value) :
    DiffEntry :=
  if desired.contains field then entry
  else { entry with toDelete := entry.toDelete.insert field found }

end DiffEntry

/-- The differences between desired and observed data, field by field: the desired fields
first, then the observed ones. -/
def diff (key : String) (desired observed : Record) : DiffEntry :=
  let compared := desired.entries.foldl
    (fun entry e => entry.addDesired observed e.1 e.2) (DiffEntry.start key)
  observed.entries.foldl (fun entry e => entry.addObserved desired e.1 e.2) compared

/-- The desired value of a field that the observed data hold with another value. -/
def changed? (observed : Record) (field : String) (want : Value) : Option Value :=
  match observed.get? field with
  | none => none
  | some found => if found = want then none else some want

/-- The value of a field that the other side does not have. -/
def missing? (other : Record) (field : String) (v : Value) : Option Value :=
  match other.get? field with
  | none => some v
  | some _ => none

namespace DiffEntry

theorem addDesired_eq (observed : Record) (entry : DiffEntry) (field : String)
    (want : Value) :
    entry.addDesired observed field want =
      { entry with
        toChange := entry.toChange.insertSome field (changed? observed field want)
        toAdd := entry.toAdd.insertSome field (missing? observed field want) } := by
  unfold addDesired changed? missing?
  cases observed.get? field with
  | none => rfl
  | some found =>
    dsimp only
    split <;> rfl

theorem addObserved_eq (desired : Record) (entry : DiffEntry) (field : String)
    (found : Value) :
    entry.addObserved desired field found =
      { entry with
        toDelete := entry.toDelete.insertSome field (missing? desired field found) } := by
  unfold addObserved missing? FieldMap.contains
  cases desired.get? field <;> rfl

theorem foldl_addDesired (observed : Record) (entries : List (String × Value))
    (entry : DiffEntry) :
    entries.foldl (fun entry e => entry.addDesired observed e.1 e.2) entry =
      { entry with
        toChange := entries.foldl
          (fun m e => m.insertSome e.1 (changed? observed e.1 e.2)) entry.toChange
        toAdd := entries.foldl
          (fun m e => m.insertSome e.1 (missing? observed e.1 e.2)) entry.toAdd } := by
  induction entries generalizing entry with
  | nil => rfl
  | cons e rest ih =>
    rw [List.foldl_cons, ih, addDesired_eq, List.foldl_cons, List.foldl_cons]

theorem foldl_addObserved (desired : Record) (entries : List (String × Value))
    (entry : DiffEntry) :
    entries.foldl (fun entry e => entry.addObserved desired e.1 e.2) entry =
      { entry with
        toDelete := entries.foldl
          (fun m e => m.insertSome e.1 (missing? desired e.1 e.2)) entry.toDelete } := by
  induction entries generalizing entry with
  | nil => rfl
  | cons e rest ih => rw [List.foldl_cons, ih, addObserved_eq, List.foldl_cons]

end DiffEntry

/-- Each part of the differences is what it keeps of one side. -/
theorem diff_eq (key : String) (desired observed : Record) :
    diff key desired observed =
      { key := key
        toChange := desired.filterMap (changed? observed)
        toAdd := desired.filterMap (missing? observed)
        toDelete := observed.filterMap (missing? desired) } := by
  simp only [diff, DiffEntry.foldl_addDesired, DiffEntry.foldl_addObserved, DiffEntry.start,
    FieldMap.foldl_insertSome]

theorem get?_toAdd (key field : String) (desired observed : Record) :
    (diff key desired observed).toAdd.get? field =
      if observed.get? field = none then desired.get? field else none := by
  rw [diff_eq, FieldMap.get?_filterMap]
  cases desired.get? field <;> cases hfound : observed.get? field <;> simp [missing?, hfound]

theorem get?_toDelete (key field : String) (desired observed : Record) :
    (diff key desired observed).toDelete.get? field =
      if desired.get? field = none then observed.get? field else none := by
  rw [diff_eq, FieldMap.get?_filterMap]
  cases observed.get? field <;> cases hwant : desired.get? field <;> simp [missing?, hwant]

theorem get?_toChange (key field : String) (desired observed : Record) :
    (diff key desired observed).toChange.get? field =
      if observed.get? field = none ∨ observed.get? field = desired.get? field then none
      else desired.get? field := by
  rw [diff_eq, FieldMap.get?_filterMap]
  cases desired.get? field <;> cases hfound : observed.get? field <;> simp [changed?, hfound]

namespace DiffEntry

def hasChanges (entry : DiffEntry) : Bool :=
  !(entry.toChange.isEmpty && entry.toAdd.isEmpty && entry.toDelete.isEmpty)

end DiffEntry

/-- The differences of every key of one device. -/
structure DeviceDiff where
  device : String
  entries : List DiffEntry
  deriving DecidableEq, Inhabited

def DeviceDiff.hasChanges (d : DeviceDiff) : Bool := d.entries.any DiffEntry.hasChanges

/-- Whether a device has a difference. -/
structure DeviceChange where
  device : String
  changed : Bool
  deriving DecidableEq, Inhabited

/-! ## Orphans -/

inductive Side where
  | desired
  | observed
  deriving DecidableEq

def Side.name : Side → String
  | .desired => "desired"
  | .observed => "observed"

inductive OrphanCause where
  /-- Only this side has the name. -/
  | only (side : Side)
  /-- This side has the name already; `what` says whether it names a device or a key. -/
  | duplicate (what : String) (side : Side)
  deriving DecidableEq

/-- An entry without a partner: a device, or a key of a device. -/
structure Orphan where
  device : String
  key : Option String
  cause : OrphanCause
  deriving DecidableEq

def Orphan.text (orphan : Orphan) : String :=
  orphan.device ++ (match orphan.key with | none => "" | some key => "/" ++ key) ++
    match orphan.cause with
    | .only side => " (" ++ side.name ++ " only)"
    | .duplicate what side => " (duplicate " ++ what ++ " in " ++ side.name ++ ")"

/-! ## Pairing by name -/

section Pairing

variable {α : Type}

/-- The names that occur again after their first occurrence, once per repetition; `seen` holds
the names met before. -/
def repeatedNames (name : α → String) : List String → List α → List String
  | _, [] => []
  | seen, x :: xs =>
    if seen.contains (name x) then name x :: repeatedNames name seen xs
    else repeatedNames name (name x :: seen) xs

/-- The first item of each name, in order; `seen` holds the names met before. -/
def firstOfEach (name : α → String) : List String → List α → List α
  | _, [] => []
  | seen, x :: xs =>
    if seen.contains (name x) then firstOfEach name seen xs
    else x :: firstOfEach name (name x :: seen) xs

/-- The last item of a name. -/
def lastNamed? (name : α → String) (items : List α) (n : String) : Option α :=
  items.reverse.find? fun x => name x == n

/-- The items whose name does not occur on the other side. -/
def unmatched (name : α → String) (items others : List α) : List α :=
  items.filter fun x => !(others.map name).contains (name x)

end Pairing

/-! ## Footprints -/

/-- The differences of two devices of one name, and the orphans among their keys. -/
def diffDevice (desired observed : DeviceFootprint) : List Orphan × DeviceDiff :=
  let device := desired.device
  let firsts := firstOfEach DataEntry.key [] desired.entries
  let partner (want : DataEntry) : Option DataEntry :=
    lastNamed? DataEntry.key observed.entries want.key
  ((repeatedNames DataEntry.key [] observed.entries).map
      (fun key => ⟨device, some key, .duplicate "key" .observed⟩) ++
    (repeatedNames DataEntry.key [] desired.entries).map
      (fun key => ⟨device, some key, .duplicate "key" .desired⟩) ++
    (firsts.filter fun want => (partner want).isNone).map
      (fun want => ⟨device, some want.key, .only .desired⟩) ++
    (unmatched DataEntry.key observed.entries desired.entries).map
      (fun e => ⟨device, some e.key, .only .observed⟩),
    ⟨device, firsts.filterMap fun want =>
      (partner want).map fun found => diff want.key want.data found.data⟩)

/-- The orphans and the differences of a desired device: it is an orphan itself when no
observed device has its name. -/
def diffDesired (observed : Footprint) (desired : DeviceFootprint) :
    List Orphan × Option DeviceDiff :=
  match lastNamed? DeviceFootprint.device observed desired.device with
  | none => ([⟨desired.device, none, .only .desired⟩], none)
  | some found =>
    let (orphans, d) := diffDevice desired found
    (orphans, if orphans.isEmpty then some d else none)

/-- The orphans of two footprints, in the order they are reported. -/
def orphans (desired observed : Footprint) : List Orphan :=
  (repeatedNames DeviceFootprint.device [] observed).map
      (fun device => ⟨device, none, .duplicate "device" .observed⟩) ++
    (repeatedNames DeviceFootprint.device [] desired).map
      (fun device => ⟨device, none, .duplicate "device" .desired⟩) ++
    (firstOfEach DeviceFootprint.device [] desired).flatMap
      (fun want => (diffDesired observed want).1) ++
    (unmatched DeviceFootprint.device observed desired).map
      (fun d => ⟨d.device, none, .only .observed⟩)

def diffOperation : String := "diff_footprints"

/-- The differences of two footprints that pair up. -/
def diffFootprints (desired observed : Footprint) : Except Incident (List DeviceDiff) :=
  match orphans desired observed with
  | [] =>
    .ok ((firstOfEach DeviceFootprint.device [] desired).filterMap
      fun want => (diffDesired observed want).2)
  | found =>
    .error { Incident.ofFault (.footprintMisaligned (found.map Orphan.text)) with
      operation := some diffOperation }

/-- Which devices of a diff have a difference. -/
def changeReport (diffs : List DeviceDiff) : List DeviceChange :=
  diffs.map fun d => ⟨d.device, d.hasChanges⟩

end FabricFootprint
