import FabricFootprint.Proofs.Extraction.Captures
import Mathlib.Algebra.BigOperators.Ring.List
import Mathlib.Algebra.Ring.Nat

/-!
FabricFootprint.Proofs.Extraction.RowMajor — the order of the probes of some directives.

The probes are the entries of a table with one dimension for each directive, in row-major
order: the first directive varies slowest.

* `rowMajor` — the position that some digits stand for, one digit for each dimension; every
  position in the table has exactly one list of digits (`exists_digits`,
  `rowMajor_injective`).
* `Probe.Chosen` — the values that some digits choose, one for each directive; there is one
  such list at most (`Probe.Chosen.unique`).
* `Probe.length_choices`, `Probe.getElem?_choices` — how many choices there are,
  and which one is where.
* `probes_rowMajor` — how many probes there are, which one is at the position of some digits,
  and when there are none.
-/

namespace FabricFootprint

/-! ## Positions -/

/-- The position of an entry in a table with dimensions of these sizes, the first
digit counting most. -/
def rowMajor : List Nat → List Nat → Nat
  | _ :: sizes, digit :: digits => digit * sizes.prod + rowMajor sizes digits
  | _, _ => 0

/-- The digits are within the sizes, one for each of them. -/
abbrev Within : List Nat → List Nat → Prop := List.Forall₂ (· < ·)

theorem rowMajor_lt {digits sizes : List Nat} (h : Within digits sizes) :
    rowMajor sizes digits < sizes.prod := by
  induction h with
  | nil => simp [rowMajor]
  | @cons digit size digits sizes hdigit _ ih =>
    rw [rowMajor, List.prod_cons]
    calc digit * sizes.prod + rowMajor sizes digits
        < digit * sizes.prod + sizes.prod := Nat.add_lt_add_left ih _
      _ = (digit + 1) * sizes.prod := (Nat.succ_mul ..).symm
      _ ≤ size * sizes.prod := Nat.mul_le_mul_right _ hdigit

/-- Different digits stand for different positions. -/
theorem rowMajor_injective {sizes digits digits' : List Nat} (h : Within digits sizes)
    (h' : Within digits' sizes) (heq : rowMajor sizes digits = rowMajor sizes digits') :
    digits = digits' := by
  induction h generalizing digits' with
  | nil => cases h'; rfl
  | @cons digit size digits sizes _ hdigits ih =>
    cases h' with
    | @cons digit' _ digits' _ _ hdigits' =>
      have hlt := rowMajor_lt hdigits
      have hlt' := rowMajor_lt hdigits'
      have hpos : 0 < sizes.prod := Nat.zero_lt_of_lt hlt
      rw [rowMajor, rowMajor, Nat.mul_comm, Nat.mul_comm digit'] at heq
      have hfirst : digit = digit' := by
        have hdiv := congrArg (· / sizes.prod) heq
        simpa [Nat.mul_add_div hpos, Nat.div_eq_of_lt hlt, Nat.div_eq_of_lt hlt'] using hdiv
      subst hfirst
      rw [ih hdigits' (Nat.add_left_cancel heq)]

/-- Every position in the table has digits. -/
theorem exists_digits {sizes : List Nat} {position : Nat} (h : position < sizes.prod) :
    ∃ digits, Within digits sizes ∧ rowMajor sizes digits = position := by
  induction sizes generalizing position with
  | nil => exact ⟨[], .nil, by simp_all [rowMajor]⟩
  | cons size sizes ih =>
    rw [List.prod_cons] at h
    have hpos : 0 < sizes.prod := Nat.pos_of_mul_pos_left (Nat.zero_lt_of_lt h)
    obtain ⟨digits, hdigits, hrest⟩ := ih (Nat.mod_lt position hpos)
    refine ⟨position / sizes.prod :: digits, .cons ?_ hdigits, ?_⟩
    · exact (Nat.div_lt_iff_lt_mul hpos).2 h
    · rw [rowMajor, hrest, Nat.div_add_mod']

section Blocks

variable {α β : Type} {xs : List α} {f : α → List β} {size : Nat}

/-- In a list of blocks of one size, an entry of a block stands behind all earlier blocks. -/
theorem getElem?_flatMap_of_length (hsize : ∀ x ∈ xs, (f x).length = size) {i j : Nat} {x : α}
    (hi : xs[i]? = some x) (hj : j < size) : (xs.flatMap f)[i * size + j]? = (f x)[j]? := by
  induction xs generalizing i with
  | nil => exact nomatch hi
  | cons y rest ih =>
    have hy : (f y).length = size := hsize y List.mem_cons_self
    rw [List.flatMap_cons]
    cases i with
    | zero =>
      cases hi
      rw [Nat.zero_mul, Nat.zero_add, List.getElem?_append_left (hy ▸ hj)]
    | succ i =>
      rw [Nat.succ_mul, Nat.add_right_comm, ← hy,
        List.getElem?_append_right (Nat.le_add_left ..), Nat.add_sub_cancel, hy]
      exact ih (fun z hz => hsize z (List.mem_cons_of_mem _ hz)) hi

end Blocks

/-! ## Choices of values -/

namespace Probe

variable {filters : FilterTable} {directives : List SearchDirective}

/-- The values that some digits choose among those captured for the directives. -/
inductive Chosen (filters : FilterTable) :
    List SearchDirective → List Nat → List Value → Prop where
  | nil : Chosen filters [] [] []
  | cons {d : SearchDirective} {directives : List SearchDirective} {digit : Nat}
      {digits : List Nat} {v : Value} {values : List Value}
      (value : (filters.values d.searchFrom)[digit]? = some v)
      (rest : Chosen filters directives digits values) :
      Chosen filters (d :: directives) (digit :: digits) (v :: values)

/-- How many values have been captured for each directive. -/
def sizes (filters : FilterTable) (directives : List SearchDirective) : List Nat :=
  directives.map fun d => (filters.values d.searchFrom).length

theorem sizes_cons (filters : FilterTable) (d : SearchDirective)
    (directives : List SearchDirective) :
    sizes filters (d :: directives) =
      (filters.values d.searchFrom).length :: sizes filters directives := rfl

theorem length_choices (filters : FilterTable) (directives : List SearchDirective) :
    (choices filters directives).length = (sizes filters directives).prod := by
  induction directives with
  | nil => rfl
  | cons d directives ih =>
    simp only [choices, sizes_cons, List.prod_cons, List.length_flatMap, List.length_map, ih,
      List.map_const', List.sum_replicate_nat]

theorem Chosen.within {digits : List Nat} {values : List Value}
    (h : Chosen filters directives digits values) :
    Within digits (sizes filters directives) := by
  induction h with
  | nil => exact .nil
  | cons value _ ih => exact .cons (List.getElem?_eq_some_iff.1 value).1 ih

/-- Digits choose no more than one list of values. -/
theorem Chosen.unique {digits : List Nat} {values values' : List Value}
    (h : Chosen filters directives digits values)
    (h' : Chosen filters directives digits values') :
    values = values' := by
  induction h generalizing values' with
  | nil =>
    cases h'
    rfl
  | cons value _ ih =>
    cases h' with
    | cons value' rest' => rw [Option.some.inj (value.symm.trans value'), ih rest']

theorem exists_chosen {digits : List Nat} (h : Within digits (sizes filters directives)) :
    ∃ values, Chosen filters directives digits values := by
  induction directives generalizing digits with
  | nil =>
    cases h
    exact ⟨[], .nil⟩
  | cons d directives ih =>
    cases h with
    | cons hdigit hdigits =>
      obtain ⟨values, hvalues⟩ := ih hdigits
      exact ⟨_ :: values, .cons (List.getElem?_eq_getElem hdigit) hvalues⟩

/-- The choice that digits make stands at their position. -/
theorem getElem?_choices {digits : List Nat} {values : List Value}
    (h : Chosen filters directives digits values) :
    (choices filters directives)[rowMajor (sizes filters directives) digits]? =
      some values := by
  induction h with
  | nil => rfl
  | @cons d directives digit digits v values value rest ih =>
    have hlength : ∀ w ∈ filters.values d.searchFrom,
        ((choices filters directives).map fun values => w :: values).length =
          (sizes filters directives).prod := by
      intro w _
      rw [List.length_map, length_choices]
    have hblock := getElem?_flatMap_of_length hlength value (rowMajor_lt rest.within)
    rw [choices, sizes_cons, rowMajor]
    exact hblock.trans (by rw [List.getElem?_map, ih, Option.map_some])

theorem prod_sizes_eq_zero_iff :
    (sizes filters directives).prod = 0 ↔
      ∃ d ∈ directives, filters.values d.searchFrom = [] := by
  rw [List.prod_eq_zero_iff]
  simp [sizes]

end Probe

/-! ## The order of the probes -/

/-- The probes of some directives are a table in row-major order, of as many probes as there
are choices of a captured value for each directive. The probe at the position of some digits
compares the field of each directive with the value that its digit chooses, and has the texts
of these values in its suffix; every position has exactly one list of digits. There is no
probe exactly when nothing has been captured for some directive. -/
theorem probes_rowMajor (filters : FilterTable) {directives : List SearchDirective}
    (hsome : directives ≠ []) :
    let sizes := Probe.sizes filters directives
    let probes := Probe.build filters directives
    probes.length = sizes.prod ∧
    (∀ digits, Within digits sizes → ∃ values, Probe.Chosen filters directives digits values ∧
      probes[rowMajor sizes digits]? = some
        { pairs := List.zipWith (fun d v => (d.searchFor, v)) directives values
          suffix := suffixText values }) ∧
    (∀ position < probes.length,
      ∃! digits, Within digits sizes ∧ rowMajor sizes digits = position) ∧
    (probes = [] ↔ ∃ d ∈ directives, filters.values d.searchFrom = []) := by
  intro sizes probes
  have hprobes :
      probes = (Probe.choices filters directives).map (Probe.ofValues directives) :=
    Probe.build_eq_map_choices hsome
  have hlength : probes.length = sizes.prod := by
    rw [hprobes, List.length_map, Probe.length_choices]
  refine ⟨hlength, fun digits hdigits => ?_, fun position hposition => ?_, ?_⟩
  · obtain ⟨values, hvalues⟩ := Probe.exists_chosen hdigits
    refine ⟨values, hvalues, ?_⟩
    rw [hprobes, List.getElem?_map, Probe.getElem?_choices hvalues, Option.map_some]
    simp [Probe.ofValues, Probe.extendBy]
  · obtain ⟨digits, hdigits, hplace⟩ := exists_digits (hlength ▸ hposition)
    refine ⟨digits, ⟨hdigits, hplace⟩, fun others hothers => ?_⟩
    exact rowMajor_injective hothers.1 hdigits (hothers.2.trans hplace.symm)
  · rw [← List.length_eq_zero_iff, hlength, Probe.prod_sizes_eq_zero_iff]

/-- Two kinds, one zone and two states: the digits 1, 0 and 0 choose the second kind
and the first state. -/
theorem probes_rowMajor_ports :
    let port (kind state : Value) : Record :=
      FieldMap.ofList [("kind", kind), ("state", state)]
    let ports : List Record :=
      [port (.str "uplink") (.bool true), port (.int 7) (.bool false)]
    let filters := FilterTable.after
      [⟨"kinds", "kind", ports⟩, ⟨"zones", "zone", ports⟩, ⟨"states", "state", ports⟩]
    let directives : List SearchDirective :=
      [⟨"kinds", "type"⟩, ⟨"zones", "area"⟩, ⟨"states", "up"⟩]
    let probe : Probe :=
      { pairs := [("type", .int 7), ("area", .str "not-exists"), ("up", .bool true)]
        suffix := ".7.not-exists.true" }
    directives ≠ [] ∧ Within [1, 0, 0] (Probe.sizes filters directives) ∧
      (Probe.build filters directives).length = 4 ∧
      (Probe.build filters directives)[2]? = some probe := by
  intro port ports filters directives probe
  have some : directives ≠ [] := by decide
  have within : Within [1, 0, 0] (Probe.sizes filters directives) :=
    .cons (by decide) (.cons (by decide) (.cons (by decide) .nil))
  obtain ⟨count, entries, -, -⟩ := probes_rowMajor filters some
  obtain ⟨values, chosen, entry⟩ := entries [1, 0, 0] within
  have second :
      Probe.Chosen filters directives [1, 0, 0] [.int 7, .str "not-exists", .bool true] :=
    .cons rfl (.cons rfl (.cons rfl .nil))
  obtain rfl := chosen.unique second
  exact ⟨some, within, count, entry⟩

end FabricFootprint
