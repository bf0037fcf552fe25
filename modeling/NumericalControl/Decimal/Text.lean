/-
  NumericalControl/Decimal/Text.lean
  ==================================
  **How a number is written.**  Three forms occur in messages and reports.
  `shortest` is the shortest decimal that reads back, always in positional form and
  without a point when the number is whole; `fixed n` has exactly `n` places;
  `scientific n` has one digit before the point, `n` after it and the bare exponent.
  The last two round the exact binary value, a tie to the even digit.  A minus sign is
  kept on zero, and the values that are no numbers are written the same in each form.
-/
import NumericalControl.Decimal.Shortest

namespace NumericalControl.Decimal.Text

def digits (n : Nat) : List Char := Nat.toDigits 10 n

/-- `units` with a decimal point before the last `places` digits. -/
def withPoint (units places : Nat) : List Char :=
  if places = 0 then digits units
  else
    let ds := digits units
    let padded := List.replicate (places + 1 - ds.length) '0' ++ ds
    let whole := padded.length - places
    padded.take whole ++ '.' :: padded.drop whole

/-- `units * 10 ^ q` in positional form, without zeros at the end of the fraction. -/
def positional (units : Nat) (q : Int) : List Char :=
  if 0 ≤ q then digits units ++ List.replicate q.toNat '0'
  else
    let kept := (withPoint units (-q).toNat).reverse.dropWhile (· == '0')
    (if kept.head? = some '.' then kept.drop 1 else kept).reverse

/-- `num / den` with `places` digits after the point. -/
def fixedFraction (num den places : Nat) : List Char :=
  withPoint (nearestEven (num * Nat.pow 10 places) den) places

/-- `num / den`, a positive fraction, with one digit before the point. -/
def scientificFraction (num den places : Nat) : List Char :=
  let top := decade num den
  let (gridNum, gridDen) := onGrid num den (top - 1 - places)
  let units := nearestEven gridNum gridDen
  let carried := decide (Nat.pow 10 (places + 1) ≤ units)
  let shown := if carried then units / 10 else units
  let power := if carried then top else top - 1
  withPoint shown places ++ 'e' :: (toString power).toList

/-- Writes a value, given how to write zero and how to write `m * 2 ^ e`. -/
def write (zero : List Char) (finite : Nat → Int → List Char) (x : Float) : String :=
  let signed := fun (s : Float.Model.UnpackedFloat.Sign) (cs : List Char) =>
    String.ofList (if s == .negative then '-' :: cs else cs)
  match x.toModel.unpack with
  | .notANumber => "NaN"
  | .infinity s => signed s ['i', 'n', 'f']
  | .zero s => signed s zero
  | .finite s m e _ => signed s (finite m e)

/-- `m * 2 ^ e` as a fraction. -/
def fraction (m : Nat) (e : Int) : Nat × Nat :=
  if 0 ≤ e then (m <<< e.toNat, 1) else (m, Nat.pow 2 (-e).toNat)

/-- The shortest decimal that reads back as `x`. -/
def shortest (x : Float) : String :=
  write ['0'] (fun m e => let (units, q) := Decimal.shortest m e; positional units q) x

/-- `x` with exactly `places` digits after the point. -/
def fixed (places : Nat) (x : Float) : String :=
  write (withPoint 0 places)
    (fun m e => let (num, den) := fraction m e; fixedFraction num den places) x

/-- `x` with one digit before the point, `places` after it, and an exponent. -/
def scientific (places : Nat) (x : Float) : String :=
  write (withPoint 0 places ++ ['e', '0'])
    (fun m e => let (num, den) := fraction m e; scientificFraction num den places) x

end NumericalControl.Decimal.Text
