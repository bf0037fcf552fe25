/-
  NumericalControl/Decimal/Rounding.lean
  ======================================
  **Fractions on a decimal grid.**  A positive fraction `num / den` is measured in
  units of `10 ^ q`: `onGrid` gives that measure as a fraction again, `nearestEven`
  rounds it to a whole number of units, and `decade` tells which power of ten the
  fraction lies under.  Everything is exact arithmetic on natural numbers.
-/

namespace NumericalControl.Decimal

/-- The whole number nearest to `num / den`; a tie goes to the even neighbour. -/
def nearestEven (num den : Nat) : Nat :=
  let below := num / den
  let rest := num % den
  if 2 * rest < den || (2 * rest == den && below % 2 == 0) then below else below + 1

/-- `num / den` measured in units of `10 ^ q`. -/
def onGrid (num den : Nat) (q : Int) : Nat × Nat :=
  if 0 ≤ q then (num, den * Nat.pow 10 q.toNat) else (num * Nat.pow 10 (-q).toNat, den)

/-- How many decimal digits a number has; zero has one. -/
def digitCount (n : Nat) : Nat := (Nat.toDigits 10 n).length

/-- The power `k` with `10 ^ (k - 1) ≤ num / den < 10 ^ k`, for a positive fraction. -/
def decade (num den : Nat) : Int :=
  if den ≤ num then digitCount (num / den)
  else 1 - (digitCount ((den + num - 1) / num - 1) : Int)

end NumericalControl.Decimal
