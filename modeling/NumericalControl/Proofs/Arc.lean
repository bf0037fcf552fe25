/-
  NumericalControl/Proofs/Arc.lean
  ================================
  **Where an arc goes.**  Over the real numbers a point of an arc is seen from the center at
  a distance between both radii, so it is never further away than the longer of them, the
  reach.  Hence both coordinates of the plane stay within the circle of that radius, and all
  others run straight from one end to the other (`Arc.positionAt_between`).
-/
import NumericalControl.Proofs.Box
import NumericalControl.Proofs.Scalar.Reals

namespace NumericalControl

theorem planeDistance_nonneg (p q : ℝ × ℝ) : 0 ≤ planeDistance p q := Real.sqrt_nonneg _

/-- A point on the way between two values of a range is in the range. -/
theorem between_on_way {lo hi p q t : ℝ} (hp : lo ≤ p ∧ p ≤ hi) (hq : lo ≤ q ∧ q ≤ hi)
    (nonneg : 0 ≤ t) (part : t ≤ 1) : lo ≤ p + (q - p) * t ∧ p + (q - p) * t ≤ hi := by
  have mixed : p + (q - p) * t = p * (1 - t) + q * t := by ring
  have rest : 0 ≤ 1 - t := sub_nonneg.mpr part
  rw [mixed]
  constructor
  · nlinarith [mul_le_mul_of_nonneg_right hp.1 rest, mul_le_mul_of_nonneg_right hq.1 nonneg]
  · nlinarith [mul_le_mul_of_nonneg_right hp.2 rest, mul_le_mul_of_nonneg_right hq.2 nonneg]

namespace Arc

section

variable {α : Type} [Scalar α] (arc : Arc α) (start target : Position α) (t : α)

theorem get_positionAt_fst :
    (arc.positionAt start target t).get arc.plane.axes.1 =
      arc.center.1 + (arc.radius + (arc.endRadius - arc.radius) * t) *
        Scalar.cos (arc.startAngle + arc.signedSweep * t) := by
  simp only [positionAt, Position.get_set_of_ne _ arc.plane.fst_ne_snd, Position.get_set_self]

theorem get_positionAt_snd :
    (arc.positionAt start target t).get arc.plane.axes.2 =
      arc.center.2 + (arc.radius + (arc.endRadius - arc.radius) * t) *
        Scalar.sin (arc.startAngle + arc.signedSweep * t) := by
  simp only [positionAt, Position.get_set_self]

theorem get_positionAt_of_ne {axis : Axis} (fst : axis ≠ arc.plane.axes.1)
    (snd : axis ≠ arc.plane.axes.2) :
    (arc.positionAt start target t).get axis =
      start.get axis + (target.get axis - start.get axis) * t := by
  simp only [positionAt, Position.get_set_of_ne _ fst, Position.get_set_of_ne _ snd,
    Position.lerp, Position.get_ofAxes]

end

variable {arc : Arc ℝ}

/-- Both radii are lengths. -/
def Measured (arc : Arc ℝ) : Prop := 0 ≤ arc.radius ∧ 0 ≤ arc.endRadius

theorem measured_rebased (arc : Arc ℝ) (center : ℝ × ℝ) (start target : Position ℝ) :
    (arc.rebased center start target).Measured :=
  ⟨planeDistance_nonneg _ _, planeDistance_nonneg _ _⟩

/-- On the way along an arc nothing is further from the center than the reach. -/
theorem Measured.between_reach (measured : arc.Measured) {t s : ℝ} (nonneg : 0 ≤ t)
    (part : t ≤ 1) (slope : |s| ≤ 1) (c : ℝ) :
    c - arc.reach ≤ c + (arc.radius + (arc.endRadius - arc.radius) * t) * s ∧
      c + (arc.radius + (arc.endRadius - arc.radius) * t) * s ≤ c + arc.reach := by
  have first : arc.radius ≤ arc.reach := Scalar.le_max (.inl le_rfl)
  have last : arc.endRadius ≤ arc.reach := Scalar.le_max (.inr le_rfl)
  obtain ⟨above, below⟩ := between_on_way ⟨measured.1, first⟩ ⟨measured.2, last⟩ nonneg part
  have size : |(arc.radius + (arc.endRadius - arc.radius) * t) * s| ≤ arc.reach := by
    rw [abs_mul, abs_of_nonneg above]
    exact (mul_le_of_le_one_right above slope).trans below
  obtain ⟨low, high⟩ := abs_le.mp size
  constructor <;> linarith

/-- **An arc stays within what it reaches**: between its ends, and within the circle of its
    longer radius on the axes of its plane. -/
theorem Measured.positionAt_between (measured : arc.Measured) {start target : Position ℝ}
    {axis : Axis} {lo hi : ℝ}
    (within : ∀ v ∈ reachedOn start target (some arc) axis, lo ≤ v ∧ v ≤ hi) {t : ℝ}
    (nonneg : 0 ≤ t) (part : t ≤ 1) :
    lo ≤ (arc.positionAt start target t).get axis ∧
      (arc.positionAt start target t).get axis ≤ hi := by
  have circle : ∀ v ∈ arc.reached axis, lo ≤ v ∧ v ≤ hi :=
    fun v mem => within v (List.mem_append_right _ mem)
  by_cases fst : axis = arc.plane.axes.1
  · subst fst
    rw [get_positionAt_fst]
    obtain ⟨low, high⟩ := measured.between_reach nonneg part
      (Real.abs_cos_le_one (arc.startAngle + arc.signedSweep * t)) arc.center.1
    exact ⟨(circle (arc.center.1 - arc.reach) (by simp [reached, envelope])).1.trans low,
      high.trans (circle (arc.center.1 + arc.reach) (by simp [reached, envelope])).2⟩
  · by_cases snd : axis = arc.plane.axes.2
    · subst snd
      rw [get_positionAt_snd]
      obtain ⟨low, high⟩ := measured.between_reach nonneg part
        (Real.abs_sin_le_one (arc.startAngle + arc.signedSweep * t)) arc.center.2
      exact ⟨(circle (arc.center.2 - arc.reach) (by simp [reached, envelope])).1.trans low,
        high.trans (circle (arc.center.2 + arc.reach) (by simp [reached, envelope])).2⟩
    · rw [get_positionAt_of_ne arc start target t fst snd]
      exact between_on_way (within _ List.mem_cons_self)
        (within _ (List.mem_cons_of_mem _ List.mem_cons_self)) nonneg part

end Arc

end NumericalControl
