import FabricFootprint.Binary64
import FabricFootprint.Numeral

/-!
FabricFootprint.Binary64.Shortest — the fewest decimal digits that read back as the same
number, and the layouts they are written in.

* `shortest` — tries one digit, two digits, … and takes the first decimal grid that has a
  point in the interval of reals rounding to the number; of two such points the nearer one.
* `Layout` — the decisions of a written form: how an exact tie between two points is
  settled, which magnitudes are written without an exponent, and whether whole numbers
  keep a fractional zero.
* `Layout.plain` — digits only, never an exponent; `Layout.document` — the
  form used in documents.
-/

namespace FabricFootprint.Binary64

/-! ## Shortest digits -/

/-- A positive decimal number `digits · 10 ^ scale`. -/
structure Digits where
  digits : Nat
  scale : Int
  deriving DecidableEq

/-- Which of two equally near decimals is taken. -/
inductive TieRule where
  | up
  | even
  deriving DecidableEq

/-- `num · 10 ^ k / den`, as numerator and denominator. -/
def scaleTen (num den : Nat) (k : Int) : Nat × Nat :=
  if k < 0 then (num, den * Nat.pow 10 k.natAbs) else (num * Nat.pow 10 k.natAbs, den)

/-- The least `k` with `num / den < 10 ^ k`, for positive `num` and `den`: searched upwards
from a lower bound read off the bit lengths. -/
def decimalExponent (num den : Nat) : Int :=
  let start : Int := ((num.log2 : Int) - den.log2 - 1) * 30103 / 100000 - 1
  let rec search : Nat → Int → Int
    | 0, k => k
    | fuel + 1, k =>
      let (n, d) := scaleTen num den (-k)
      if n < d then k else search fuel (k + 1)
  search 8 start

/-- Digits without trailing zeros, for a positive count. -/
def Digits.trim : Nat → Digits → Digits
  | 0, d => d
  | fuel + 1, d =>
    if d.digits % 10 = 0 then Digits.trim fuel ⟨d.digits / 10, d.scale + 1⟩ else d

/-- The points of one decimal grid next to `value / unit`, taken when they lie in the interval
between `low / unit` and `high / unit` (ends included when `closed`). All four quantities are
already scaled so that the grid points are the integers. -/
def gridPoint? (tie : TieRule) (closed : Bool) (low value high unit : Nat) : Option Nat :=
  let below := value / unit
  let inside (n : Nat) : Bool :=
    if closed then decide (low ≤ n * unit) && decide (n * unit ≤ high)
    else decide (low < n * unit) && decide (n * unit < high)
  match inside below, inside (below + 1) with
  | false, false => none
  | true, false => some below
  | false, true => some (below + 1)
  | true, true =>
    let r := 2 * (value % unit)
    if r < unit then some below
    else if unit < r then some (below + 1)
    else match tie with
      | .up => some (below + 1)
      | .even => some (if below % 2 = 0 then below else below + 1)

/-- The shortest decimal that reads back as the positive finite number `x`. The interval that
rounds to `x` reaches half a unit to each side, a quarter below a power of two. Seventeen
digits always have a point in it; the scan stops there. -/
def shortest (tie : TieRule) (x : Binary64) : Digits :=
  let m := x.significand
  let q := x.exponent - 2
  let narrow := decide (x.fraction = 0) && decide (1 < x.exponentField)
  let num := if q < 0 then 1 else 1 <<< q.natAbs
  let den := if q < 0 then 1 <<< q.natAbs else 1
  let low := (4 * m - if narrow then 1 else 2) * num
  let value := 4 * m * num
  let high := (4 * m + 2) * num
  let closed := decide (m % 2 = 0)
  let k := decimalExponent value den
  let rec scan : Nat → Nat → Digits
    | 0, _ => ⟨m, 0⟩
    | fuel + 1, n =>
      let step := k - n
      let (up, unit) := scaleTen 1 den (-step)
      match gridPoint? tie closed (low * up) (value * up) (high * up) unit with
      | some d => Digits.trim 20 ⟨d, step⟩
      | none => scan fuel (n + 1)
  scan 18 1

/-! ## Layouts -/

/-- The decisions of a written form of finite numbers. -/
structure Layout where
  /-- How a tie between two equally near decimals is settled. -/
  tie : TieRule
  /-- Written without an exponent when the point stands right of at least this many places
  (`none`: always). A negative bound counts the zeros after the point. -/
  lowest : Option Int
  /-- Written without an exponent when the point stands left of at most this many digits
  (`none`: always). -/
  highest : Option Int
  /-- Whether a whole number written without an exponent keeps a fractional zero. -/
  pointZero : Bool

/-- Digits only: never an exponent, no point in whole numbers, the greater of two equally near
decimals. -/
def Layout.plain : Layout := ⟨.up, none, none, false⟩

/-- The form of numbers in documents: an exponent from `1e16` on and below `1e-5`, a
fractional zero in whole numbers, the even one of two equally near decimals. -/
def Layout.document : Layout := ⟨.even, some (-4), some 16, true⟩

/-- Whether a point position is written without an exponent. -/
def Layout.positional (layout : Layout) (point : Int) : Bool :=
  layout.lowest.all (fun b => decide (b ≤ point)) &&
    layout.highest.all (fun b => decide (point ≤ b))

/-- The fraction digits of a whole number written without an exponent. -/
def Layout.wholeFraction (layout : Layout) : List (Fin 10) :=
  if layout.pointZero then [Numeral.digitOf 0] else []

/-- Decimal digits as a numeral of a layout. The point stands `point` places right of the
first digit; with an exponent it stands right behind that digit. -/
def Layout.numeral (layout : Layout) (negative : Bool) (d : Digits) : Numeral :=
  let count := (Nat.toDigits 10 d.digits).length
  let point : Int := count + d.scale
  if layout.positional point then
    if d.scale < 0 then
      ⟨negative, d.digits / Nat.pow 10 d.scale.natAbs,
        Numeral.places d.scale.natAbs d.digits, none⟩
    else ⟨negative, d.digits * Nat.pow 10 d.scale.natAbs, layout.wholeFraction, none⟩
  else
    ⟨negative, d.digits / Nat.pow 10 (count - 1), Numeral.places (count - 1) d.digits,
      some (point - 1)⟩

/-- A finite number as a numeral of a layout; zero keeps its sign. -/
def Layout.ofFinite (layout : Layout) (x : Binary64) : Numeral :=
  if x.isZero then ⟨x.negative, 0, layout.wholeFraction, none⟩
  else layout.numeral x.negative (shortest layout.tie x)

/-- The text of any number in digits alone; infinities are `inf` and `-inf`,
every NaN is `NaN`. -/
def text (x : Binary64) : String :=
  if x.isNaN then "NaN"
  else if x.isInfinite then (if x.negative then "-inf" else "inf")
  else String.ofList (Layout.plain.ofFinite x).chars

end FabricFootprint.Binary64
