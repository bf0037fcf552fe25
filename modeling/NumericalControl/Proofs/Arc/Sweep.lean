/-
  NumericalControl/Proofs/Arc/Sweep.lean
  ======================================
  **How far an arc turns, and where it ends.**  Over the real numbers the sweep from one
  angle to another is the one number above zero and at most a full turn that leads there,
  counted up or down with the direction of the turn (`sweepAngle_eq_iff`).  Everything else
  about sweeps follows from that: an arc that is run backwards in the opposite direction has
  the same sweep, and the sweeps in both directions make a full turn together.

  A point is seen from a center in some direction and at some distance, and these two give
  its coordinates back (`planeDistance_mul_cos`, `planeDistance_mul_sin`).  This needs no
  condition, since the center itself is seen at distance zero.  So an arc starts where it
  should, and ends where it should when its end angle is the direction of its end up to full
  turns (`Arc.closes_through`).
-/
import Mathlib.Algebra.Order.ToIntervalMod
import NumericalControl.Proofs.Arc

namespace NumericalControl

open scoped Real

/-! ### Sweeps -/

def Direction.opposite : Direction → Direction
  | .clockwise => .counterClockwise
  | .counterClockwise => .clockwise

theorem Direction.sign_clockwise : (Direction.clockwise.sign : ℝ) = -1 := by
  change (-(1.0) : ℝ) = -1
  norm_num

theorem Direction.sign_counterClockwise : (Direction.counterClockwise.sign : ℝ) = 1 := by
  change (1.0 : ℝ) = 1
  norm_num

theorem Direction.sign_opposite (direction : Direction) :
    (direction.opposite.sign : ℝ) = -direction.sign := by
  cases direction
  · rw [opposite, sign_clockwise, sign_counterClockwise, neg_neg]
  · rw [opposite, sign_clockwise, sign_counterClockwise]

theorem Direction.sign_mul_sign (direction : Direction) :
    (direction.sign * direction.sign : ℝ) = 1 := by
  cases direction
  · rw [sign_clockwise, neg_one_mul, neg_neg]
  · rw [sign_counterClockwise, one_mul]

theorem Direction.abs_sign (direction : Direction) : |(direction.sign : ℝ)| = 1 := by
  cases direction
  · rw [sign_clockwise, abs_neg, abs_one]
  · rw [sign_counterClockwise, abs_one]

/-- Counting the other way round is counting down. -/
theorem Direction.sign_mul_modEq_iff (direction : Direction) {x y p : ℝ} :
    direction.sign * x ≡ y [PMOD p] ↔ x ≡ direction.sign * y [PMOD p] := by
  cases direction
  · rw [sign_clockwise, neg_one_mul, neg_one_mul, ← AddCommGroup.neg_modEq_neg, neg_neg]
  · rw [sign_counterClockwise, one_mul, one_mul]

theorem Direction.sign_mul_turn (direction : Direction) :
    direction.sign * (2 * π) ≡ 0 [PMOD 2 * π] := by
  rw [sign_mul_modEq_iff, mul_zero]
  exact AddCommGroup.self_modEq_zero

theorem modulo_turn (gap : ℝ) :
    Scalar.modulo gap (2 * π) = toIcoMod Real.two_pi_pos 0 gap := by
  have turn_ne : 2 * π ≠ 0 := Real.two_pi_pos.ne'
  rw [toIcoMod_eq_fract_mul, Int.fract, sub_mul, div_mul_cancel₀ gap turn_ne]
  exact congrArg (gap - ·) (mul_comm _ _)

section

variable (a b : ℝ) (direction : Direction)

/-- The sweep is what is left of the way from one angle to the other without full turns. -/
theorem sweepAngle_eq :
    sweepAngle a b direction = toIocMod Real.two_pi_pos 0 (direction.sign * (b - a)) := by
  have gap : (match direction with
      | .clockwise => a - b
      | .counterClockwise => b - a) = direction.sign * (b - a) := by
    cases direction
    · rw [Direction.sign_clockwise]
      ring
    · rw [Direction.sign_counterClockwise, one_mul]
  have zero : (0.0 : ℝ) = 0 := by norm_num
  have unfolded : sweepAngle a b direction =
      if Scalar.Same (Scalar.modulo (direction.sign * (b - a)) (2 * π)) 0 then 2 * π
      else Scalar.modulo (direction.sign * (b - a)) (2 * π) := by
    rw [← gap, ← zero]
    rfl
  rw [unfolded, modulo_turn]
  -- the remainders above zero and from zero on differ for whole turns only
  by_cases whole : 0 ≡ direction.sign * (b - a) [PMOD 2 * π]
  · have atZero := (AddCommGroup.modEq_iff_toIcoMod_eq_left Real.two_pi_pos).mp whole
    have atTurn := (AddCommGroup.modEq_iff_toIocMod_eq_right Real.two_pi_pos).mp whole
    rw [atZero, if_pos ⟨le_rfl, le_rfl⟩, atTurn, zero_add]
  · have same := (AddCommGroup.not_modEq_iff_toIcoMod_eq_toIocMod Real.two_pi_pos).mp whole
    have notZero : ¬Scalar.Same (toIcoMod Real.two_pi_pos 0 (direction.sign * (b - a))) 0 :=
      fun both => whole <| (AddCommGroup.modEq_iff_toIcoMod_eq_left Real.two_pi_pos).mpr
        (le_antisymm both.1 both.2)
    rw [if_neg notZero, same]

/-- **The sweep is the one angle above zero and up to a full turn that leads to the end.** -/
theorem sweepAngle_eq_iff {s : ℝ} :
    sweepAngle a b direction = s ↔
      (0 < s ∧ s ≤ 2 * π) ∧ direction.sign * s ≡ b - a [PMOD 2 * π] := by
  rw [sweepAngle_eq, toIocMod_eq_iff, direction.sign_mul_modEq_iff,
    AddCommGroup.modEq_iff_eq_add_zsmul, zero_add, Set.mem_Ioc]

theorem sweepAngle_pos : 0 < sweepAngle a b direction :=
  ((sweepAngle_eq_iff a b direction).mp rfl).1.1

theorem sweepAngle_le : sweepAngle a b direction ≤ 2 * π :=
  ((sweepAngle_eq_iff a b direction).mp rfl).1.2

theorem sign_mul_sweepAngle : direction.sign * sweepAngle a b direction ≡ b - a [PMOD 2 * π] :=
  ((sweepAngle_eq_iff a b direction).mp rfl).2

/-- An arc that is run backwards turns as far. -/
theorem sweepAngle_reversed : sweepAngle b a direction.opposite = sweepAngle a b direction := by
  rw [sweepAngle_eq, sweepAngle_eq, direction.sign_opposite, neg_mul, ← mul_neg, neg_sub]

/-- Both ways round make a full turn. -/
theorem sweepAngle_add_opposite (apart : ¬a ≡ b [PMOD 2 * π]) :
    sweepAngle a b direction + sweepAngle a b direction.opposite = 2 * π := by
  have gap : ¬0 ≡ direction.sign * (b - a) [PMOD 2 * π] := by
    rw [← direction.sign_mul_modEq_iff, mul_zero]
    exact fun whole => apart (AddCommGroup.sub_modEq_zero.mp whole.symm).symm
  rw [sweepAngle_eq, sweepAngle_eq, direction.sign_opposite, neg_mul, toIocMod_neg, neg_zero,
    (AddCommGroup.not_modEq_iff_toIcoMod_eq_toIocMod Real.two_pi_pos).mp gap,
    add_sub_cancel]

/-- Between directions that coincide lies a full turn, never none. -/
theorem sweepAngle_of_coincident (same : a ≡ b [PMOD 2 * π]) :
    sweepAngle a b direction = 2 * π := by
  have whole : 0 ≡ b - a [PMOD 2 * π] := (AddCommGroup.sub_modEq_zero.mpr same.symm).symm
  exact (sweepAngle_eq_iff a b direction).mpr
    ⟨⟨Real.two_pi_pos, le_rfl⟩, direction.sign_mul_turn.trans whole⟩

end

/-- What is to be known of the sweep from one angle to another. -/
structure SweepLaw (a b : ℝ) (direction : Direction) : Prop where
  pos : 0 < sweepAngle a b direction
  le_turn : sweepAngle a b direction ≤ 2 * π
  /-- No other angle in this range leads to the end. -/
  eq_iff : ∀ s, 0 < s → s ≤ 2 * π →
    (direction.sign * s ≡ b - a [PMOD 2 * π] ↔ s = sweepAngle a b direction)
  reversed : sweepAngle b a direction.opposite = sweepAngle a b direction
  coincident : a ≡ b [PMOD 2 * π] → sweepAngle a b direction = 2 * π
  bothWays : ¬a ≡ b [PMOD 2 * π] →
    sweepAngle a b direction + sweepAngle a b direction.opposite = 2 * π

theorem sweepLaw (a b : ℝ) (direction : Direction) : SweepLaw a b direction := by
  constructor
  case pos => exact sweepAngle_pos a b direction
  case le_turn => exact sweepAngle_le a b direction
  case eq_iff =>
    intro s positive within
    rw [eq_comm (a := s), sweepAngle_eq_iff]
    exact (and_iff_right ⟨positive, within⟩).symm
  case reversed => exact sweepAngle_reversed a b direction
  case coincident => exact sweepAngle_of_coincident a b direction
  case bothWays => exact sweepAngle_add_opposite a b direction

/-! ### Points seen from a center -/

section

variable (center point : ℝ × ℝ)

theorem planeDistance_eq_norm :
    planeDistance center point = ‖(⟨point.1 - center.1, point.2 - center.2⟩ : ℂ)‖ := by
  rw [Complex.norm_def, Complex.normSq_apply]
  rfl

theorem planeDistance_mul_cos :
    planeDistance center point * Real.cos (angleAbout center point) = point.1 - center.1 := by
  rw [planeDistance_eq_norm]
  exact Complex.norm_mul_cos_arg _

theorem planeDistance_mul_sin :
    planeDistance center point * Real.sin (angleAbout center point) = point.2 - center.2 := by
  rw [planeDistance_eq_norm]
  exact Complex.norm_mul_sin_arg _

/-- Directions differ by less than a full turn. -/
theorem angleAbout_modEq_iff (other : ℝ × ℝ) :
    angleAbout center point ≡ angleAbout center other [PMOD 2 * π] ↔
      angleAbout center point = angleAbout center other := by
  have range (p : ℝ × ℝ) : angleAbout center p ∈ Set.Ioc (-π) (-π + 2 * π) := by
    have bounds := Complex.arg_mem_Ioc ⟨p.1 - center.1, p.2 - center.2⟩
    rw [neg_add_eq_sub, two_mul, add_sub_cancel_right]
    exact bounds
  constructor
  · intro same
    obtain ⟨turns, same⟩ := AddCommGroup.modEq_iff_eq_add_zsmul.mp same
    have reduced := (toIocMod_eq_toIocMod Real.two_pi_pos (a := -π)).mpr
      ⟨turns, sub_eq_of_eq_add' same⟩
    rwa [(toIocMod_eq_self Real.two_pi_pos).mpr (range point),
      (toIocMod_eq_self Real.two_pi_pos).mpr (range other)] at reduced
  · intro same
    rw [same]

end

theorem cos_of_modEq {a b : ℝ} (same : a ≡ b [PMOD 2 * π]) : Real.cos a = Real.cos b := by
  obtain ⟨turns, rfl⟩ := AddCommGroup.modEq_iff_eq_add_zsmul.mp same
  rw [zsmul_eq_mul, Real.cos_add_int_mul_two_pi]

theorem sin_of_modEq {a b : ℝ} (same : a ≡ b [PMOD 2 * π]) : Real.sin a = Real.sin b := by
  obtain ⟨turns, rfl⟩ := AddCommGroup.modEq_iff_eq_add_zsmul.mp same
  rw [zsmul_eq_mul, Real.sin_add_int_mul_two_pi]

/-! ### Arcs between their ends -/

namespace Arc

variable {arc : Arc ℝ} {start target : Position ℝ}

/-- The arc begins at a position, as seen from its center. -/
structure StartsAt (arc : Arc ℝ) (start : Position ℝ) : Prop where
  radius : arc.radius = planeDistance arc.center (arc.plane.coords start)
  angle : arc.startAngle = angleAbout arc.center (arc.plane.coords start)

/-- The arc ends at a position, as seen from its center and up to full turns. -/
structure EndsAt (arc : Arc ℝ) (target : Position ℝ) : Prop where
  radius : arc.endRadius = planeDistance arc.center (arc.plane.coords target)
  angle : arc.endAngle ≡ angleAbout arc.center (arc.plane.coords target) [PMOD 2 * π]

theorem StartsAt.positionAt_zero (starts : arc.StartsAt start) (target : Position ℝ) :
    arc.positionAt start target 0 = start := by
  -- the two axes of the plane turn, the others move in proportion
  refine Position.ext_get fun axis => ?_
  by_cases fst : axis = arc.plane.axes.1
  · rw [fst, get_positionAt_fst, mul_zero, mul_zero, add_zero, add_zero, starts.radius,
      starts.angle]
    exact (congrArg (arc.center.1 + ·) (planeDistance_mul_cos _ _)).trans (add_sub_cancel _ _)
  · by_cases snd : axis = arc.plane.axes.2
    · rw [snd, get_positionAt_snd, mul_zero, mul_zero, add_zero, add_zero, starts.radius,
        starts.angle]
      exact (congrArg (arc.center.2 + ·) (planeDistance_mul_sin _ _)).trans (add_sub_cancel _ _)
    · rw [get_positionAt_of_ne arc start target 0 fst snd, mul_zero, add_zero]

theorem EndsAt.positionAt_one (ends : arc.EndsAt target) (start : Position ℝ) :
    arc.positionAt start target 1 = target := by
  have angle : arc.startAngle + arc.signedSweep = arc.endAngle := add_sub_cancel _ _
  refine Position.ext_get fun axis => ?_
  by_cases fst : axis = arc.plane.axes.1
  · rw [fst, get_positionAt_fst, mul_one, mul_one, add_sub_cancel, angle, ends.radius]
    have cos : Scalar.cos arc.endAngle = Real.cos _ := cos_of_modEq ends.angle
    rw [cos, planeDistance_mul_cos, add_sub_cancel]
    rfl
  · by_cases snd : axis = arc.plane.axes.2
    · rw [snd, get_positionAt_snd, mul_one, mul_one, add_sub_cancel, angle, ends.radius]
      have sin : Scalar.sin arc.endAngle = Real.sin _ := sin_of_modEq ends.angle
      rw [sin, planeDistance_mul_sin, add_sub_cancel]
      rfl
    · rw [get_positionAt_of_ne arc start target 1 fst snd, mul_one, add_sub_cancel]

section

variable {plane : Plane} {center : ℝ × ℝ} {start target : Position ℝ} {direction : Direction}
  {tolerance : ℝ}

theorem signedSweep_of_near
    (near : planeDistance (plane.coords start) (plane.coords target) < tolerance) :
    (through plane center start target direction tolerance).signedSweep =
      direction.sign * (2 * π) :=
  (add_sub_cancel_left _ _).trans (congrArg _ (if_pos (decide_eq_true near)))

theorem signedSweep_of_apart
    (apart : ¬planeDistance (plane.coords start) (plane.coords target) < tolerance) :
    (through plane center start target direction tolerance).signedSweep =
      direction.sign * sweepAngle (angleAbout center (plane.coords start))
        (angleAbout center (plane.coords target)) direction :=
  (add_sub_cancel_left _ _).trans
    (congrArg _ (if_neg fun near => apart (of_decide_eq_true near)))

theorem sweep_of_signedSweep {turn : ℝ} (signed : arc.signedSweep = direction.sign * turn)
    (positive : 0 < turn) : arc.sweep = turn := by
  change |arc.signedSweep| = turn
  rw [signed, abs_mul, direction.abs_sign, one_mul, abs_of_pos positive]

theorem exists_turn (plane : Plane) (center : ℝ × ℝ) (start target : Position ℝ)
    (direction : Direction) (tolerance : ℝ) : ∃ turn, (0 < turn ∧ turn ≤ 2 * π) ∧
      (through plane center start target direction tolerance).signedSweep =
        direction.sign * turn := by
  by_cases near : planeDistance (plane.coords start) (plane.coords target) < tolerance
  · exact ⟨2 * π, ⟨Real.two_pi_pos, le_rfl⟩, signedSweep_of_near near⟩
  · exact ⟨_, ⟨sweepAngle_pos _ _ _, sweepAngle_le _ _ _⟩, signedSweep_of_apart near⟩

theorem sweep_of_near
    (near : planeDistance (plane.coords start) (plane.coords target) < tolerance) :
    (through plane center start target direction tolerance).sweep = 2 * π :=
  sweep_of_signedSweep (signedSweep_of_near near) Real.two_pi_pos

/-- **Between ends that do not coincide an arc turns as far as its ends are apart.** -/
theorem sweep_of_apart
    (apart : ¬planeDistance (plane.coords start) (plane.coords target) < tolerance) :
    (through plane center start target direction tolerance).sweep =
      sweepAngle (angleAbout center (plane.coords start))
        (angleAbout center (plane.coords target)) direction :=
  sweep_of_signedSweep (signedSweep_of_apart apart) (sweepAngle_pos _ _ _)

theorem startsAt_through :
    (through plane center start target direction tolerance).StartsAt start :=
  ⟨rfl, rfl⟩

theorem endsAt_through
    (closed : (through plane center start target direction tolerance).fullCircle = false ∨
      plane.coords start = plane.coords target) :
    (through plane center start target direction tolerance).EndsAt target := by
  refine ⟨rfl, ?_⟩
  have angle : (through plane center start target direction tolerance).endAngle =
      angleAbout center (plane.coords start) +
        (through plane center start target direction tolerance).signedSweep :=
    (add_sub_cancel _ _).symm
  change _ ≡ angleAbout center (plane.coords target) [PMOD 2 * π]
  rw [angle]
  by_cases near : planeDistance (plane.coords start) (plane.coords target) < tolerance
  · -- a full turn leads back to the start
    have full : ¬decide (planeDistance (plane.coords start) (plane.coords target) < tolerance) =
        false := by simpa using near
    rw [signedSweep_of_near near, closed.resolve_left full]
    exact (direction.sign_mul_turn.add_left _).trans (by rw [add_zero])
  · rw [signedSweep_of_apart near]
    exact ((sign_mul_sweepAngle _ _ direction).add_left _).trans (by rw [add_sub_cancel])

end

/-- What an arc keeps and what it takes on when it is moved. -/
structure Rebases (arc moved : Arc ℝ) (center : ℝ × ℝ) (start target : Position ℝ) : Prop where
  plane_eq : moved.plane = arc.plane
  direction_eq : moved.direction = arc.direction
  fullCircle_eq : moved.fullCircle = arc.fullCircle
  signedSweep_eq : moved.signedSweep = arc.signedSweep
  center_eq : moved.center = center
  startsAt : moved.StartsAt start
  endRadius_eq : moved.endRadius = planeDistance center (arc.plane.coords target)

theorem rebases_rebased (arc : Arc ℝ) (center : ℝ × ℝ) (start target : Position ℝ) :
    arc.Rebases (arc.rebased center start target) center start target where
  plane_eq := rfl
  direction_eq := rfl
  fullCircle_eq := rfl
  signedSweep_eq := add_sub_cancel_left _ _
  center_eq := rfl
  startsAt := ⟨rfl, rfl⟩
  endRadius_eq := rfl

/-- What is to be known of an arc that is asked for in a plane, about a center, from one
    position to another and in a direction. -/
structure Closes (arc : Arc ℝ) (plane : Plane) (center : ℝ × ℝ) (start target : Position ℝ)
    (direction : Direction) (tolerance : ℝ) : Prop where
  plane_eq : arc.plane = plane
  center_eq : arc.center = center
  direction_eq : arc.direction = direction
  fullCircle_iff : arc.fullCircle = true ↔
    planeDistance (plane.coords start) (plane.coords target) < tolerance
  startsAt : arc.StartsAt start
  endRadius_eq : arc.endRadius = planeDistance center (plane.coords target)
  pos : 0 < arc.sweep
  le_turn : arc.sweep ≤ 2 * π
  /-- The arc turns in the direction that is asked for. -/
  signedSweep_eq : arc.signedSweep = direction.sign * arc.sweep
  sweep_of_circle : arc.fullCircle = true → arc.sweep = 2 * π
  sweep_of_part : arc.fullCircle = false → arc.sweep =
    sweepAngle (angleAbout center (plane.coords start)) (angleAbout center (plane.coords target))
      direction
  positionAt_zero : arc.positionAt start target 0 = start
  /-- An arc ends at its end, unless it is a full circle whose ends merely nearly coincide. -/
  positionAt_one : arc.fullCircle = false ∨ plane.coords start = plane.coords target →
    arc.positionAt start target 1 = target
  rebased : ∀ center first last, arc.Rebases (arc.rebased center first last) center first last

/-- **Sweeps lead from end to end.**  The sweep is the one angle that leads from the start to
    the end of an arc, so an arc that is walked goes from its start to its end. -/
theorem closes_through (plane : Plane) (center : ℝ × ℝ) (start target : Position ℝ)
    (direction : Direction) (tolerance : ℝ) :
    (∀ a b, SweepLaw a b direction) ∧
      (∀ p q, angleAbout center p ≠ angleAbout center q →
        sweepAngle (angleAbout center p) (angleAbout center q) direction +
          sweepAngle (angleAbout center p) (angleAbout center q) direction.opposite = 2 * π) ∧
      (through plane center start target direction tolerance).Closes plane center start target
        direction tolerance := by
  refine ⟨fun a b => sweepLaw a b direction, fun p q apart => ?_, ?_⟩
  · exact sweepAngle_add_opposite _ _ direction fun same =>
      apart ((angleAbout_modEq_iff center p q).mp same)
  · obtain ⟨turn, ⟨positive, within⟩, signed⟩ :=
      exists_turn plane center start target direction tolerance
    have sweep := sweep_of_signedSweep signed positive
    constructor
    case plane_eq => rfl
    case center_eq => rfl
    case direction_eq => rfl
    case fullCircle_iff => exact decide_eq_true_iff
    case startsAt => exact startsAt_through
    case endRadius_eq => rfl
    case pos => exact sweep ▸ positive
    case le_turn => exact sweep ▸ within
    case signedSweep_eq => rw [signed, sweep]
    case sweep_of_circle => exact fun full => sweep_of_near (of_decide_eq_true full)
    case sweep_of_part => exact fun part => sweep_of_apart (of_decide_eq_false part)
    case positionAt_zero => exact startsAt_through.positionAt_zero target
    case positionAt_one => exact fun closed => (endsAt_through closed).positionAt_one start
    case rebased => exact rebases_rebased _

end Arc

end NumericalControl
