import FabricFootprint.Conversion
import FabricFootprint.Rule
import FabricFootprint.Text.Substring

/-!
FabricFootprint.Extraction.Select — the match step: which records of a chunk fit a seed.

* `Rule.rawSeed?` — the seed before conversion: the extraction key, or a field of the data
  that is present and not null.
* `Rule.seed` — the seed after the declared conversion.
* `Rule.judge` — whether a record is selected, passed over, or has a value of the wrong type.
  A field that is absent or null is passed over.
* `Rule.scan` — one pass over a chunk, which keeps the selected records, and of the mistyped
  values the type of the first one and their number.
* `Rule.select`, `Rule.mistyped`, `Rule.scan_eq` — what a scan finds, said
  of the chunk as a whole.
-/

namespace FabricFootprint

/-! ## Seeds -/

/-- The outcome of looking for a seed. -/
inductive Seed where
  | absent
  | found (v : Value)
  /-- The converter refused the raw seed. -/
  | refused (fault : ConversionFault)
  /-- The declared conversion is not registered. -/
  | unregistered (fault : ConversionFault)

namespace Rule

def rawSeed? (rule : Rule) (key : String) (data : Record) : Option Value :=
  match rule.linkage with
  | .direct => some (.str key)
  | .indirect => Value.ofField? data rule.sourceName
  | .noLink => none

/-- A raw seed after the declared conversion; without a declaration it stays as it is. -/
def convertSeed (registry : ConversionRegistry) (rule : Rule) (raw : Value) : Seed :=
  match rule.conversion? with
  | none => .found raw
  | some (source, target) =>
    match registry.convert source target raw with
    | .ok v => .found v
    | .error (.unregistered a b) => .unregistered (.unregistered a b)
    | .error (.failed a b v reason) => .refused (.failed a b v reason)

def seed (registry : ConversionRegistry) (key : String) (data : Record) (rule : Rule) :
    Seed :=
  match rule.rawSeed? key data with
  | none => .absent
  | some raw => rule.convertSeed registry raw

/-! ## Records -/

/-- What the match step says about a record. -/
inductive Verdict where
  | selected
  | passed
  /-- The field holds a value of a type that cannot be compared. -/
  | mistyped (found : String)
  deriving DecidableEq

/-- Whether one of two texts contains the other. -/
def overlaps (a b : String) : Bool := Text.contains a b || Text.contains b a

/-- The verdict on a value that is present and not null. -/
def judgeValue (matchType : MatchType) (seed v : Value) : Verdict :=
  match matchType with
  | .full =>
    if v.type? = seed.type? then (if v = seed then .selected else .passed)
    else .mistyped v.typeName
  | .containment =>
    match v.str?, seed.str? with
    | some a, some b => if overlaps a b then .selected else .passed
    | _, _ => .mistyped v.typeName
  | .noMatch => .selected

def judge (rule : Rule) (seed : Value) (record : Record) : Verdict :=
  match Value.ofField? record rule.destName with
  | none => .passed
  | some v => judgeValue rule.matchType seed v

/-! ## Chunks -/

/-- What the records seen so far come to: the selected ones, the type name of the first
mistyped value, and how many mistyped values there are. -/
structure MatchScan where
  selected : List Record
  firstMistyped : Option String
  mistypedCount : Nat

namespace MatchScan

def start : MatchScan := ⟨[], none, 0⟩

/-- One more record, with the verdict on it. -/
def add (scan : MatchScan) (record : Record) : Verdict → MatchScan
  | .selected => { scan with selected := scan.selected ++ [record] }
  | .passed => scan
  | .mistyped found =>
    { scan with
      firstMistyped := scan.firstMistyped.or (some found)
      mistypedCount := scan.mistypedCount + 1 }

end MatchScan

/-- The records of a chunk are judged one after the other. -/
def scan (rule : Rule) (seed : Value) (chunk : List Record) : MatchScan :=
  chunk.foldl (fun scan record => scan.add record (rule.judge seed record)) MatchScan.start

/-- The records of a chunk that fit a seed, in chunk order. -/
def select (rule : Rule) (seed : Value) (chunk : List Record) : List Record :=
  chunk.filter fun record => rule.judge seed record = .selected

/-- The type names of the mistyped values that a seed meets in a chunk, in chunk order. -/
def mistyped (rule : Rule) (seed : Value) (chunk : List Record) : List String :=
  chunk.filterMap fun record =>
    match rule.judge seed record with
    | .mistyped found => some found
    | _ => none

/-- A scan goes on from what it has found already; a first mistyped value
stays the first one. -/
theorem foldl_add_eq (rule : Rule) (seed : Value) (chunk : List Record) (found : MatchScan) :
    chunk.foldl (fun scan record => scan.add record (rule.judge seed record)) found =
      { selected := found.selected ++ rule.select seed chunk
        firstMistyped := found.firstMistyped.or (rule.mistyped seed chunk).head?
        mistypedCount := found.mistypedCount + (rule.mistyped seed chunk).length } := by
  induction chunk generalizing found with
  | nil => simp [select, mistyped]
  | cons record rest ih =>
    rw [List.foldl_cons, ih]
    cases hverdict : rule.judge seed record with
    | selected => simp [MatchScan.add, select, mistyped, hverdict]
    | passed => simp [MatchScan.add, select, mistyped, hverdict]
    | mistyped name =>
      simp [MatchScan.add, select, mistyped, hverdict]
      omega

/-- A scan finds the records that are selected, and the first and the number of those that are
mistyped. -/
theorem scan_eq (rule : Rule) (seed : Value) (chunk : List Record) :
    rule.scan seed chunk =
      { selected := rule.select seed chunk
        firstMistyped := (rule.mistyped seed chunk).head?
        mistypedCount := (rule.mistyped seed chunk).length } := by
  rw [scan, foldl_add_eq]
  simp [MatchScan.start]

end Rule

end FabricFootprint
