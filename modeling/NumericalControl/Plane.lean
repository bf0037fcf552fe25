/-
  NumericalControl/Plane.lean
  ===========================
  **Working planes and turning directions.**  A plane names its two axes in right-handed
  order: seen from the positive side of the normal, the turn from the first axis to the
  second is counter-clockwise.  The normal is the axis of the tool: helices advance along
  it, holes are drilled along it, and tool length acts along it.
-/
import NumericalControl.Position

namespace NumericalControl

inductive Plane where
  | xy | xz | yz
  deriving DecidableEq, Repr

namespace Plane

/-- The two axes of the plane, in right-handed order with its normal. -/
def axes : Plane → Axis × Axis
  | xy => (.x, .y)
  | xz => (.z, .x)
  | yz => (.y, .z)

def normal : Plane → Axis
  | xy => .z
  | xz => .y
  | yz => .x

theorem normal_ne_fst (plane : Plane) : plane.normal ≠ plane.axes.1 := by
  cases plane <;> decide

theorem normal_ne_snd (plane : Plane) : plane.normal ≠ plane.axes.2 := by
  cases plane <;> decide

theorem fst_ne_snd (plane : Plane) : plane.axes.1 ≠ plane.axes.2 := by
  cases plane <;> decide

/-- The address letter of an arc center's offset along a linear axis. -/
def offsetLetter : Axis → Char
  | .x => 'I'
  | .y => 'J'
  | _ => 'K'

/-- The letters that place an arc center in the plane, in the order of its axes. -/
def offsetLetters (plane : Plane) : Char × Char :=
  (offsetLetter plane.axes.1, offsetLetter plane.axes.2)

/-- The part of a position that lies in the plane. -/
def coords {α : Type} (plane : Plane) (p : Position α) : α × α :=
  (p.get plane.axes.1, p.get plane.axes.2)

end Plane

/-- A sense of rotation, seen from the positive side of the axis. -/
inductive Direction where
  | clockwise | counterClockwise
  deriving DecidableEq, Repr

/-- Counter-clockwise angles count up. -/
def Direction.sign {α : Type} [Scalar α] : Direction → α
  | .clockwise => -1.0
  | .counterClockwise => 1.0

end NumericalControl
