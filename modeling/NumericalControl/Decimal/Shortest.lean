/-
  NumericalControl/Decimal/Shortest.lean
  ======================================
  **The shortest decimal that reads back.**  A binary64 value `m * 2 ^ e` stands for an
  interval of reals: those that round to it.  Its ends lie half a step away (a quarter
  of the upper step below a power of two, where the steps halve) and belong to it when
  `m` is even.  `shortest` looks on ever finer decimal grids for a point of that
  interval; a grid that has one has one next to the value, so two neighbours are all
  that needs a test.  Of two hits the nearer wins, and of two equally near the larger.
-/
import NumericalControl.Decimal.Rounding

namespace NumericalControl.Decimal

/-- The reals that round to one value, as fractions over a common denominator. -/
structure RoundingInterval where
  low : Nat
  value : Nat
  high : Nat
  den : Nat
  closed : Bool

/-- The interval of `m * 2 ^ e`, in quarters of a step. -/
def RoundingInterval.of (m : Nat) (e : Int) : RoundingInterval :=
  let below := if m == Nat.pow 2 52 && e != -1074 then 1 else 2
  let scale := fun n : Nat => if 2 ≤ e then n <<< (e - 2).toNat else n
  { low := scale (4 * m - below)
    value := scale (4 * m)
    high := scale (4 * m + 2)
    den := if 2 ≤ e then 1 else Nat.pow 2 (2 - e).toNat
    closed := m % 2 == 0 }

/-- The point of the interval that lies on the grid of `10 ^ q`, in units of the grid. -/
def RoundingInterval.gridPoint? (r : RoundingInterval) (q : Int) : Option Nat :=
  let (low, den) := onGrid r.low r.den q
  let (value, _) := onGrid r.value r.den q
  let (high, _) := onGrid r.high r.den q
  let inside := fun n : Nat =>
    if r.closed then decide (low ≤ n * den) && decide (n * den ≤ high)
    else decide (low < n * den) && decide (n * den < high)
  let down := value / den
  let up := down + 1
  match inside down, inside up with
  | true, true => some (if value - down * den < up * den - value then down else up)
  | true, false => some down
  | false, true => some up
  | false, false => none

/-- Units and power of ten of the shortest decimal for `m * 2 ^ e`. Seventeen digits
    always suffice. -/
def shortest (m : Nat) (e : Int) : Nat × Int :=
  let r := RoundingInterval.of m e
  let top := decade r.value r.den
  let hit := (List.range 17).findSome? fun n =>
    let q := top - (n + 1 : Nat)
    (r.gridPoint? q).map fun units => (units, q)
  hit.getD (0, 0)

end NumericalControl.Decimal
