/-
  NumericalControl/Proofs/Compensation.lean
  =========================================
  **Carrying over is a shift.**  In the plane of a memory its work offset alone is added,
  and an arc center is carried over like any point of the plane.  Along the tool axis the
  length of the tool comes in too.  Over the real numbers all of it is one addition: of
  the displacement that the memory and the stroke give (`toMachine_eq_add`).
-/
import NumericalControl.Compensation
import NumericalControl.Proofs.Scalar.Reals

namespace NumericalControl

theorem Plane.coords_add (plane : Plane) (p q : Position ℝ) :
    plane.coords (p.add q) = plane.coords p + plane.coords q := by
  unfold Plane.coords Position.add
  rw [Position.get_ofAxes, Position.get_ofAxes]
  rfl

namespace Offsets

section

variable {α : Type} [Scalar α]

/-- What is added to a program position on its way to the machine. -/
def displacement (offsets : Offsets α) (s : State α) (stroke : Stroke) : Position α :=
  let shift := offsets.shift s
  if s.lengthComp ∧ 0 < s.lengthRegister then
    let axis := s.plane.normal
    let length := offsets.tool.length s.lengthRegister
    shift.set axis <| match stroke with
      | .approach => shift.get axis - length
      | .retract => shift.get axis + length
  else shift

theorem get_toMachine_of_ne (offsets : Offsets α) (p : Position α) {s : State α} {axis : Axis}
    (h : axis ≠ s.plane.normal) (stroke : Stroke) :
    (offsets.toMachine p s stroke).get axis = p.get axis + (offsets.shift s).get axis := by
  have added : (p.add (offsets.shift s)).get axis = p.get axis + (offsets.shift s).get axis :=
    Position.get_ofAxes _ axis
  unfold Offsets.toMachine
  dsimp only
  split
  · rw [Position.get_set_of_ne _ h]
    exact added
  · exact added

theorem get_displacement_of_ne (offsets : Offsets α) {s : State α} {axis : Axis}
    (h : axis ≠ s.plane.normal) (stroke : Stroke) :
    (offsets.displacement s stroke).get axis = (offsets.shift s).get axis := by
  unfold Offsets.displacement
  dsimp only
  split
  · exact Position.get_set_of_ne _ h _
  · rfl

theorem coords_displacement (offsets : Offsets α) (s : State α) (stroke : Stroke) :
    s.plane.coords (offsets.displacement s stroke) = s.plane.coords (offsets.shift s) := by
  unfold Plane.coords
  rw [get_displacement_of_ne offsets s.plane.normal_ne_fst.symm,
    get_displacement_of_ne offsets s.plane.normal_ne_snd.symm]

/-- Memories with one work offset displace alike in the plane of the second, unless the
    first has a tool's length along another axis. -/
theorem coords_displacement_of_same (offsets : Offsets α) {s t : State α}
    (work : s.workOffset = t.workOffset)
    (plane : s.plane = t.plane ∨ ¬(s.lengthComp ∧ 0 < s.lengthRegister)) (stroke : Stroke) :
    t.plane.coords (offsets.displacement s stroke) = t.plane.coords (offsets.shift t) := by
  have shift : offsets.shift s = offsets.shift t := congrArg offsets.work.shift work
  rcases plane with plane | idle
  · rw [← plane, coords_displacement, shift]
  · have unmoved : offsets.displacement s stroke = offsets.shift s := by
      unfold displacement
      exact if_neg idle
    rw [unmoved, shift]

end

/-- **Over the real numbers carrying over is adding the displacement.** -/
theorem toMachine_eq_add (offsets : Offsets ℝ) (p : Position ℝ) (s : State ℝ) (stroke : Stroke) :
    offsets.toMachine p s stroke = p.add (offsets.displacement s stroke) := by
  apply Position.ext_get
  intro axis
  unfold Position.add
  rw [Position.get_ofAxes]
  by_cases along : axis = s.plane.normal
  · subst along
    unfold Offsets.toMachine Offsets.displacement
    dsimp only
    split
    · rw [Position.get_set_self, Position.get_set_self]
      unfold Position.add
      rw [Position.get_ofAxes]
      cases stroke with
      | approach => exact add_sub_assoc _ _ _
      | retract => exact add_assoc _ _ _
    · exact Position.get_ofAxes _ _
  · rw [get_toMachine_of_ne offsets p along, get_displacement_of_ne offsets along]

end Offsets

end NumericalControl
