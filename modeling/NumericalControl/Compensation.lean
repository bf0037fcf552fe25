/-
  NumericalControl/Compensation.lean
  ==================================
  **From the program to the machine.**  A program position is shifted by the work offset
  in force.  With length compensation on, and a register chosen, the coordinate along
  the tool axis is then shifted by the length of the tool: down on the way to the part,
  up on the way from it.  A level move keeps the shift of the move before it, so that it
  stays level.

  The cutter's radius is never applied.  A correct path beside the programmed one needs
  to look ahead over several moves; the side and the radius in force are only reported.
-/
import NumericalControl.Machine
import NumericalControl.Modal.State

namespace NumericalControl

/-- The way of a move along the tool axis. -/
inductive Stroke where
  /-- To the part. -/
  | approach
  /-- From the part. -/
  | retract
  deriving DecidableEq, Repr

/-- Travel along the tool axis that counts as none. -/
def levelTolerance {α : Type} [Scalar α] : α := 1e-9

/-- The stroke of a move along an axis; none for a level move. -/
def Stroke.between? {α : Type} [Scalar α] (start target : Position α) (axis : Axis) :
    Option Stroke :=
  let travel := target.get axis - start.get axis
  if levelTolerance < travel then some retract
  else if travel < -levelTolerance then some approach
  else none

/-- The cutter compensation in force, as it is reported. -/
structure CutterReport (α : Type) where
  side : Side
  register : Nat
  radius : α
  deriving DecidableEq, Repr

namespace Offsets

variable {α : Type} [Scalar α]

def shift (offsets : Offsets α) (s : State α) : Position α :=
  offsets.work.shift s.workOffset

def toMachine (offsets : Offsets α) (p : Position α) (s : State α) (stroke : Stroke) :
    Position α :=
  let shifted := p.add (offsets.shift s)
  if s.lengthComp ∧ 0 < s.lengthRegister then
    let axis := s.plane.normal
    let length := offsets.tool.length s.lengthRegister
    shifted.set axis <| match stroke with
      | .approach => shifted.get axis - length
      | .retract => shifted.get axis + length
  else shifted

/-- The machine position of an arc center. It lies in the plane, where the tool's length
    has no part. -/
def centerToMachine (offsets : Offsets α) (center : α × α) (s : State α) : α × α :=
  let shift := offsets.shift s
  (center.1 + shift.get s.plane.axes.1, center.2 + shift.get s.plane.axes.2)

def cutterReport? (offsets : Offsets α) (s : State α) : Option (CutterReport α) :=
  s.cutterSide.map fun side =>
    { side
      register := s.diameterRegister
      radius := offsets.tool.radius s.diameterRegister }

end Offsets

end NumericalControl
