/-
  NumericalControl/Scalar/Binary64.lean
  =====================================
  **Binary floating point as scalars.**  `Float` is binary64.  Its arithmetic,
  order and square root come with the type; this module adds what they leave out.
  Whole parts, rounding to an integer and the remainder of a division are exact
  integer arithmetic on the value's significand and exponent, rounded at most once.
  The length of a vector is computed in floating point.

  `unpack` gives a finite value as a sign, a positive significand `m` and an
  exponent `e`, and the value is `m * 2 ^ e`.
-/
import NumericalControl.Scalar

namespace NumericalControl.Binary64

open Float.Model

/-- The nearest binary64 value to `m * 2 ^ e`, ties to the even significand. -/
def ofScaled (negative : Bool) (m : Nat) (e : Int) : Float :=
  .ofModel <| pack <|
    if m = 0 then .zero (if negative then .negative else .positive)
    else UnpackedFloat.round .binary64 (if negative then .negative else .positive) m e

def infinity : Float := .ofModel (pack (.infinity .positive))

def nan : Float := .ofModel (pack .notANumber)

/-! ### Whole parts

For `m * 2 ^ e` the whole part is a shift of `m`, and the bits shifted out are the
fraction. -/

/-- Whole part of `m * 2 ^ e`. -/
def wholePart (m : Nat) (e : Int) : Nat :=
  if 0 ≤ e then m <<< e.toNat else m >>> (-e).toNat

/-- Whole part of `m * 2 ^ e + 1 / 2`. -/
def nearestWhole (m : Nat) (e : Int) : Nat :=
  if 0 ≤ e then m <<< e.toNat else (m + Nat.pow 2 ((-e).toNat - 1)) >>> (-e).toNat

/-- Whether `m * 2 ^ e` is an integer. -/
def isWhole (m : Nat) (e : Int) : Bool :=
  decide (0 ≤ e) || m % Nat.pow 2 (-e).toNat == 0

/-- Zero for negative values and for those that are no numbers. -/
def floor (x : Float) : Nat :=
  match x.toModel.unpack with
  | .finite .positive m e _ => wholePart m e
  | _ => 0

/-- Zero for negative values and for those that are no numbers. -/
def ceil (x : Float) : Nat :=
  match x.toModel.unpack with
  | .finite .positive m e _ => if isWhole m e then wholePart m e else wholePart m e + 1
  | _ => 0

/-- Nearest integer, halves away from zero; the sign is kept, also on zero. -/
def round (x : Float) : Float :=
  match x.toModel.unpack with
  | .finite s m e _ => ofScaled (s == .negative) (nearestWhole m e) 0
  | _ => x

/-! ### Remainder and length -/

/-- The remainder of `m * 2 ^ e` by `n * 2 ^ f`, exactly: both significands are
    brought to the smaller exponent, where the remainder is one of integers. -/
def magnitudeMod (m : Nat) (e : Int) (n : Nat) (f : Int) : Nat × Int :=
  let g := min e f
  ((m <<< (e - g).toNat) % (n <<< (f - g).toNat), g)

/-- The remainder by a finite divisor: first with the sign of the dividend, then
    lifted by the divisor's size when it is below zero. -/
def modulo (x y : Float) : Float :=
  match x.toModel.unpack, y.toModel.unpack with
  | .zero _, .finite _ _ _ _ => x
  | .finite s m e _, .finite _ n f _ =>
    let (r, g) := magnitudeMod m e n f
    let signed := ofScaled (s == .negative) r g
    if signed < 0.0 then signed + y.abs else signed
  | _, _ => nan

/-- The length of `(a, b)` for `a ≥ b ≥ 0`, when no square of them over- or underflows. The
    root of the rounded sum of squares is corrected once by the difference of its square
    and that sum, in a form whose terms are computed without much loss. -/
def correctedLength (a b : Float) : Float :=
  let h := (a * a + b * b).sqrt
  let excess :=
    if h ≤ 2.0 * b then
      let d := h - b
      a * (2.0 * d - a) + (d - 2.0 * (a - b)) * d
    else
      let d := h - a
      2.0 * d * (a - 2.0 * b) + ((4.0 * d - b) * b + d * d)
  h - excess / (2.0 * h)

/-- Values above this one are scaled down before they are squared. -/
def largeLength : Float := ofScaled false 1 511

/-- Values below this one are scaled up before they are squared. -/
def tinyLength : Float := ofScaled false 1 (-459)

def lengthScale : Float := ofScaled false 1 600

/-- A component this many times as large as the other one is the length by itself. -/
def dominance : Float := ofScaled false 1 54

/-- The length of `(a, b)` for finite `a ≥ b ≥ 0`. -/
def orderedLength (a b : Float) : Float :=
  if b * dominance ≤ a then a + b
  else if largeLength < a then
    correctedLength (a / lengthScale) (b / lengthScale) * lengthScale
  else if b < tinyLength then
    correctedLength (a * lengthScale) (b * lengthScale) / lengthScale
  else correctedLength a b

/-- The length of `(x, y)`, within one unit of the last place. An infinite component makes
    it infinite, even beside an undefined one. -/
def hypot (x y : Float) : Float :=
  match x.toModel.unpack, y.toModel.unpack with
  | .infinity _, _ | _, .infinity _ => infinity
  | .notANumber, _ | _, .notANumber => nan
  | _, _ => if x.abs < y.abs then orderedLength y.abs x.abs else orderedLength x.abs y.abs

/-- One with the sign of the argument; the sign of a zero counts. -/
def sign (x : Float) : Float :=
  match x.toModel.unpack with
  | .notANumber => x
  | .infinity s | .zero s | .finite s _ _ _ => if s == .negative then -1.0 else 1.0

instance : Scalar Float where
  decidableLt := fun a b => inferInstanceAs (Decidable (a < b))
  decidableLe := fun a b => inferInstanceAs (Decidable (a ≤ b))
  isFinite := Float.isFinite
  abs := Float.abs
  sign := sign
  sqrt := Float.sqrt
  hypot := hypot
  sin := Float.sin
  cos := Float.cos
  arctan2 := Float.atan2
  modulo := modulo
  turn := 6.283185307179586
  ofNat := fun n => ofScaled false n 0
  floor := floor
  ceil := ceil
  round := round

end NumericalControl.Binary64
