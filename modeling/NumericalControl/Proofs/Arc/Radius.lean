/-
  NumericalControl/Proofs/Arc/Radius.lean
  =======================================
  **Where the center of an arc with a radius lies.**  Every point that is as far from one
  end of a chord as from the other lies beside the middle of the chord, some number of chord
  lengths to its left; to its right that number is negative (`besideChord`).  The sine of
  the sweep about a point has the sign of that number for counter-clockwise arcs, and the
  opposite sign for clockwise ones (`sin_sweepAbout`).  So the side of the chord on which
  the center lies decides whether the arc is at most or at least half a turn.

  The sign that the direction and the sign of the radius have together puts the center on
  the side where a positive radius gives the smaller arc and a negative one the larger
  (`solvesRadius`).  That each sign fits the others is a matter of three conventions: which
  normal of the chord counts as left, how angles are counted, and what a negative radius
  asks for.
-/
import Mathlib
import NumericalControl.Arc.Radius
import NumericalControl.Proofs.Arc.Sweep

namespace NumericalControl

open scoped Real

/-! ### Points beside a chord -/

/-- Twice the area of the triangle from the chord to a point, above zero when the point lies
    to the left of the way from `start` to `target` and below zero to its right. -/
def leftOf (start target point : ℝ × ℝ) : ℝ :=
  (target.1 - start.1) * (point.2 - start.2) - (target.2 - start.2) * (point.1 - start.1)

/-- The middle of the chord. -/
noncomputable def middleOf (start target : ℝ × ℝ) : ℝ × ℝ :=
  ((start.1 + target.1) / 2.0, (start.2 + target.2) / 2.0)

/-- The point that lies `k` chord lengths to the left of the middle of the chord. -/
noncomputable def besideChord (start target : ℝ × ℝ) (k : ℝ) : ℝ × ℝ :=
  ((middleOf start target).1 - (target.2 - start.2) * k,
    (middleOf start target).2 + (target.1 - start.1) * k)

theorem two_eq : (2.0 : ℝ) = 2 := by norm_num

theorem middleOf_eq (start target : ℝ × ℝ) :
    middleOf start target = ((start.1 + target.1) / 2, (start.2 + target.2) / 2) := by
  rw [middleOf, two_eq]

theorem planeDistance_sq (p q : ℝ × ℝ) :
    planeDistance p q ^ 2 = (q.1 - p.1) ^ 2 + (q.2 - p.2) ^ 2 := by
  have nonneg : 0 ≤ (q.1 - p.1) * (q.1 - p.1) + (q.2 - p.2) * (q.2 - p.2) :=
    add_nonneg (mul_self_nonneg _) (mul_self_nonneg _)
  exact (Real.sq_sqrt nonneg).trans (by ring)

section

variable (start target : ℝ × ℝ) (k : ℝ)

theorem planeDistance_besideChord_start :
    planeDistance (besideChord start target k) start ^ 2 =
      planeDistance start target ^ 2 * (1 / 4 + k ^ 2) := by
  rw [planeDistance_sq, planeDistance_sq, besideChord, middleOf_eq]
  ring

theorem planeDistance_besideChord_target :
    planeDistance (besideChord start target k) target ^ 2 =
      planeDistance start target ^ 2 * (1 / 4 + k ^ 2) := by
  rw [planeDistance_sq, planeDistance_sq, besideChord, middleOf_eq]
  ring

theorem leftOf_besideChord :
    leftOf start target (besideChord start target k) = planeDistance start target ^ 2 * k := by
  rw [planeDistance_sq, leftOf, besideChord, middleOf_eq]
  ring

theorem besideChord_zero : besideChord start target 0 = middleOf start target := by
  rw [besideChord, mul_zero, mul_zero, sub_zero, add_zero]

theorem planeDistance_besideChord :
    planeDistance (besideChord start target k) start =
      planeDistance (besideChord start target k) target := by
  refine (sq_eq_sq₀ (planeDistance_nonneg _ _) (planeDistance_nonneg _ _)).mp ?_
  rw [planeDistance_besideChord_start, planeDistance_besideChord_target]

end

/-! ### Arcs about a point -/

/-- The sweep of the arc from `start` to `target` about a center. -/
noncomputable def sweepAbout (center start target : ℝ × ℝ) (direction : Direction) : ℝ :=
  sweepAngle (angleAbout center start) (angleAbout center target) direction

section

variable {center start target : ℝ × ℝ} {direction : Direction}

theorem Direction.sin_sign_mul (direction : Direction) (x : ℝ) :
    Real.sin (direction.sign * x) = direction.sign * Real.sin x := by
  cases direction
  · rw [sign_clockwise, neg_one_mul, neg_one_mul, Real.sin_neg]
  · rw [sign_counterClockwise, one_mul, one_mul]

/-- **The sine of the sweep tells the side of the chord on which the center lies.** -/
theorem sin_sweepAbout (center start target : ℝ × ℝ) (direction : Direction) :
    direction.sign * (planeDistance center start * planeDistance center target *
      Real.sin (sweepAbout center start target direction)) = leftOf start target center := by
  have sine : direction.sign * Real.sin (sweepAbout center start target direction) =
      Real.sin (angleAbout center target - angleAbout center start) := by
    rw [← direction.sin_sign_mul]
    exact sin_of_modEq (sign_mul_sweepAngle _ _ direction)
  have cos := planeDistance_mul_cos center
  have sin := planeDistance_mul_sin center
  calc direction.sign * (planeDistance center start * planeDistance center target *
        Real.sin (sweepAbout center start target direction))
      = planeDistance center start * planeDistance center target *
          Real.sin (angleAbout center target - angleAbout center start) := by
        rw [← sine]
        ring
    _ = (planeDistance center target * Real.sin (angleAbout center target)) *
            (planeDistance center start * Real.cos (angleAbout center start)) -
          (planeDistance center target * Real.cos (angleAbout center target)) *
            (planeDistance center start * Real.sin (angleAbout center start)) := by
        rw [Real.sin_sub]
        ring
    _ = leftOf start target center := by
        rw [cos, cos, sin, sin, leftOf]
        ring

/-- Points at one distance are told apart by their directions. -/
theorem eq_of_angleAbout_eq (even : planeDistance center start = planeDistance center target)
    (same : angleAbout center start = angleAbout center target) : start = target := by
  have first := planeDistance_mul_cos center start
  have second := planeDistance_mul_sin center start
  rw [even, same, planeDistance_mul_cos] at first
  rw [even, same, planeDistance_mul_sin] at second
  exact Prod.ext (sub_left_injective first).symm (sub_left_injective second).symm

/-- An arc between two points is no full turn. -/
theorem sweepAbout_lt (direction : Direction)
    (even : planeDistance center start = planeDistance center target) (apart : start ≠ target) :
    sweepAbout center start target direction < 2 * π := by
  refine lt_of_le_of_ne (sweepAngle_le _ _ _) fun full => apart (eq_of_angleAbout_eq even ?_)
  have way := ((sweepAngle_eq_iff _ _ direction).mp full).2
  have whole := direction.sign_mul_turn.symm.trans way
  exact ((angleAbout_modEq_iff _ _ _).mp (AddCommGroup.sub_modEq_zero.mp whole.symm)).symm

/-- The sine of the sweep about a center at one distance from both ends. -/
theorem sin_sweepAbout_of_even (even : planeDistance center start = planeDistance center target) :
    planeDistance center start ^ 2 * Real.sin (sweepAbout center start target direction) =
      direction.sign * leftOf start target center := by
  rw [← sin_sweepAbout center start target direction, ← even, ← mul_assoc, direction.sign_mul_sign,
    one_mul, sq]

theorem sweepAbout_le (even : planeDistance center start = planeDistance center target)
    (away : 0 < planeDistance center start) (apart : start ≠ target)
    (side : 0 ≤ direction.sign * leftOf start target center) :
    sweepAbout center start target direction ≤ π := by
  rw [← sin_sweepAbout_of_even even] at side
  have sine := nonneg_of_mul_nonneg_right side (pow_pos away 2)
  by_contra more
  -- between half a turn and a full turn the sine is below zero
  have below := Real.sin_pos_of_pos_of_lt_pi (sub_pos.mpr (not_le.mp more))
    (by linarith [sweepAbout_lt direction even apart])
  rw [Real.sin_sub_pi] at below
  linarith

theorem le_sweepAbout (even : planeDistance center start = planeDistance center target)
    (away : 0 < planeDistance center start)
    (side : direction.sign * leftOf start target center ≤ 0) :
    π ≤ sweepAbout center start target direction := by
  rw [← sin_sweepAbout_of_even even] at side
  have sine := nonpos_of_mul_nonpos_right side (pow_pos away 2)
  by_contra less
  have above := Real.sin_pos_of_pos_of_lt_pi (sweepAngle_pos _ _ direction) (not_le.mp less)
  exact absurd sine (not_le.mpr above)

/-! ### Sweeps about points beside the chord -/

theorem ne_of_chord (chord : 0 < planeDistance start target) : start ≠ target := by
  rintro rfl
  have zero : planeDistance start start ^ 2 = 0 := by
    rw [planeDistance_sq]
    ring
  exact chord.ne' (pow_eq_zero_iff two_ne_zero |>.mp zero)

theorem planeDistance_besideChord_pos (chord : 0 < planeDistance start target) (k : ℝ) :
    0 < planeDistance (besideChord start target k) start := by
  refine lt_of_le_of_ne (planeDistance_nonneg _ _) fun coincident => ?_
  have square := planeDistance_besideChord_start start target k
  have positive : 0 < planeDistance start target ^ 2 * (1 / 4 + k ^ 2) := by positivity
  rw [← coincident, zero_pow two_ne_zero] at square
  exact positive.ne square

/-- About a point to its left, a counter-clockwise arc is at most half a turn. -/
theorem sweepAbout_besideChord_le (chord : 0 < planeDistance start target) {k : ℝ}
    (side : 0 ≤ direction.sign * k) :
    sweepAbout (besideChord start target k) start target direction ≤ π := by
  refine sweepAbout_le (planeDistance_besideChord _ _ _) (planeDistance_besideChord_pos chord k)
    (ne_of_chord chord) ?_
  rw [leftOf_besideChord, mul_left_comm]
  exact mul_nonneg (sq_nonneg _) side

theorem le_sweepAbout_besideChord (chord : 0 < planeDistance start target) {k : ℝ}
    (side : direction.sign * k ≤ 0) :
    π ≤ sweepAbout (besideChord start target k) start target direction := by
  refine le_sweepAbout (planeDistance_besideChord _ _ _) (planeDistance_besideChord_pos chord k) ?_
  rw [leftOf_besideChord, mul_left_comm]
  exact mul_nonpos_of_nonneg_of_nonpos (sq_nonneg _) side

end

/-! ### The center that is solved for -/

theorem Scalar.sign_of_neg {r : ℝ} (negative : r < 0) : Scalar.sign r = -1 := if_pos negative

theorem Scalar.sign_of_pos {r : ℝ} (positive : 0 < r) : Scalar.sign r = 1 :=
  if_neg positive.not_gt

theorem Scalar.sign_mul_sign (r : ℝ) : Scalar.sign r * Scalar.sign r = 1 := by
  change (if r < 0 then (-1 : ℝ) else 1) * (if r < 0 then -1 else 1) = 1
  split <;> norm_num

/-- How many chord lengths the center lies to the left of the chord. -/
noncomputable def centerShift (chord r : ℝ) (direction : Direction) : ℝ :=
  direction.sign * Scalar.sign r * √(r ^ 2 - (chord / 2.0) ^ 2) / chord

theorem centerShift_eq (chord r : ℝ) (direction : Direction) : centerShift chord r direction =
    direction.sign * Scalar.sign r * √(r ^ 2 - (chord / 2) ^ 2) / chord := by
  rw [centerShift, two_eq]

section

variable {start target : ℝ × ℝ} {r tolerance : ℝ} {direction : Direction}

theorem centerFromRadius_of_near (near : planeDistance start target < tolerance) :
    centerFromRadius start target r direction tolerance = .undetermined :=
  if_pos near

theorem centerFromRadius_of_short (apart : tolerance ≤ planeDistance start target)
    (short : |r| < planeDistance start target / 2) :
    centerFromRadius start target r direction tolerance =
      .clamped (middleOf start target) := by
  unfold centerFromRadius
  dsimp only
  rw [if_neg (not_lt.mpr apart), middleOf_eq, two_eq]
  exact if_pos short

theorem centerFromRadius_of_reach (apart : tolerance ≤ planeDistance start target)
    (reach : planeDistance start target / 2 ≤ |r|) :
    centerFromRadius start target r direction tolerance =
      .center (besideChord start target
        (centerShift (planeDistance start target) r direction)) := by
  have long : ¬Scalar.abs r < planeDistance start target / 2 := not_lt.mpr reach
  unfold centerFromRadius
  dsimp only
  rw [if_neg (not_lt.mpr apart), two_eq, if_neg long]
  have root : Scalar.sqrt
      (r * r - planeDistance start target / 2 * (planeDistance start target / 2)) =
        √(r ^ 2 - (planeDistance start target / 2) ^ 2) := by
    rw [sq, sq]
    rfl
  rw [root]
  refine congrArg RadiusCenter.center (Prod.ext ?_ ?_)
  · rw [besideChord, middleOf_eq, centerShift_eq]
    ring
  · rw [besideChord, middleOf_eq, centerShift_eq]
    ring

/-- What is under the root is not negative when the radius reaches. -/
theorem sq_sub_sq_nonneg (chord : 0 < planeDistance start target)
    (reach : planeDistance start target / 2 ≤ |r|) :
    0 ≤ r ^ 2 - (planeDistance start target / 2) ^ 2 := by
  rw [sub_nonneg, ← sq_abs r]
  exact pow_le_pow_left₀ (half_pos chord).le reach 2

theorem sq_centerShift (chord : 0 < planeDistance start target)
    (reach : planeDistance start target / 2 ≤ |r|) :
    planeDistance start target ^ 2 *
      (1 / 4 + centerShift (planeDistance start target) r direction ^ 2) = r ^ 2 := by
  have unit : (direction.sign * Scalar.sign r : ℝ) ^ 2 = 1 := by
    rw [mul_pow, sq, direction.sign_mul_sign, sq, Scalar.sign_mul_sign, one_mul]
  rw [centerShift_eq, div_pow, mul_pow, unit, one_mul, Real.sq_sqrt (sq_sub_sq_nonneg chord reach)]
  field_simp
  ring

theorem planeDistance_center (direction : Direction) (chord : 0 < planeDistance start target)
    (reach : planeDistance start target / 2 ≤ |r|) :
    planeDistance (besideChord start target
      (centerShift (planeDistance start target) r direction)) start = |r| := by
  refine (sq_eq_sq₀ (planeDistance_nonneg _ _) (abs_nonneg r)).mp ?_
  rw [planeDistance_besideChord_start, sq_centerShift chord reach, sq_abs]

/-- Where the center lies, up to a factor above zero. -/
theorem exists_centerShift (direction : Direction) (chord : 0 < planeDistance start target)
    (reach : planeDistance start target / 2 ≤ |r|) :
    ∃ h, 0 ≤ h ∧ (h = 0 ↔ |r| = planeDistance start target / 2) ∧
      centerShift (planeDistance start target) r direction =
        direction.sign * Scalar.sign r * h := by
  refine ⟨√(r ^ 2 - (planeDistance start target / 2) ^ 2) / planeDistance start target,
    div_nonneg (Real.sqrt_nonneg _) chord.le, ?_,
    (centerShift_eq _ _ _).trans (mul_div_assoc _ _ _)⟩
  rw [div_eq_zero_iff, or_iff_left chord.ne', Real.sqrt_eq_zero (sq_sub_sq_nonneg chord reach),
    sub_eq_zero, ← sq_abs r, sq_eq_sq₀ (abs_nonneg r) (half_pos chord).le]

end

/-! ### Which center it is -/

/-- A center that fits the ends of an arc, its radius and its direction. -/
structure FitsRadius (start target : ℝ × ℝ) (r : ℝ) (direction : Direction)
    (center : ℝ × ℝ) : Prop where
  distance_start : planeDistance center start = |r|
  distance_target : planeDistance center target = |r|
  left : direction = .counterClockwise ∧ 0 < r ∨ direction = .clockwise ∧ r < 0 →
    0 ≤ leftOf start target center
  right : direction = .counterClockwise ∧ r < 0 ∨ direction = .clockwise ∧ 0 < r →
    leftOf start target center ≤ 0
  /-- The center lies on the chord only if the radius just reaches. -/
  onChord_iff : leftOf start target center = 0 ↔ |r| = planeDistance start target / 2
  minor : 0 < r → sweepAbout center start target direction ≤ π
  major : r < 0 → π ≤ sweepAbout center start target direction

/-- A center for half a turn. -/
structure Halves (start target center : ℝ × ℝ) : Prop where
  even : planeDistance center start = planeDistance center target
  sweep : ∀ direction, sweepAbout center start target direction = π

/-- What is solved for the ends of an arc and its radius. -/
structure SolvesRadius (start target : ℝ × ℝ) (r : ℝ) (direction : Direction)
    (tolerance : ℝ) : Prop where
  center : tolerance ≤ planeDistance start target → planeDistance start target / 2 ≤ |r| →
    ∃ center, centerFromRadius start target r direction tolerance = .center center ∧
      FitsRadius start target r direction center
  clamped : tolerance ≤ planeDistance start target → |r| < planeDistance start target / 2 →
    centerFromRadius start target r direction tolerance = .clamped (middleOf start target) ∧
      Halves start target (middleOf start target)
  undetermined : planeDistance start target < tolerance →
    centerFromRadius start target r direction tolerance = .undetermined
  /-- The sweeps above are those of the arcs that are drawn. -/
  drawn : tolerance ≤ planeDistance start target → ∀ plane first last center,
    plane.coords first = start → plane.coords last = target →
      (Arc.through plane center first last direction tolerance).sweep =
        sweepAbout center start target direction

section

variable {start target : ℝ × ℝ} {r tolerance : ℝ} {direction : Direction}

theorem fitsRadius (chord : 0 < planeDistance start target)
    (reach : planeDistance start target / 2 ≤ |r|) :
    FitsRadius start target r direction (besideChord start target
      (centerShift (planeDistance start target) r direction)) := by
  have even := planeDistance_besideChord start target
    (centerShift (planeDistance start target) r direction)
  have distance := planeDistance_center direction chord reach
  obtain ⟨h, nonneg, zero_iff, shift⟩ := exists_centerShift direction chord reach
  have square : 0 < planeDistance start target ^ 2 := pow_pos chord 2
  have side := leftOf_besideChord start target
    (centerShift (planeDistance start target) r direction)
  rw [shift] at side
  have turned : direction.sign * centerShift (planeDistance start target) r direction =
      Scalar.sign r * h := by
    rw [shift, mul_assoc, ← mul_assoc, direction.sign_mul_sign, one_mul]
  -- on which side the center lies, and how far the arc turns, is a matter of signs
  constructor
  case distance_start => exact distance
  case distance_target => exact even ▸ distance
  case left =>
    rw [shift, side]
    refine fun signs => mul_nonneg square.le (mul_nonneg ?_ nonneg)
    rcases signs with ⟨rfl, positive⟩ | ⟨rfl, negative⟩
    · rw [Direction.sign_counterClockwise, Scalar.sign_of_pos positive, one_mul]
      exact zero_le_one
    · rw [Direction.sign_clockwise, Scalar.sign_of_neg negative, neg_one_mul, neg_neg]
      exact zero_le_one
  case right =>
    rw [shift, side]
    refine fun signs => mul_nonpos_of_nonneg_of_nonpos square.le
      (mul_nonpos_of_nonpos_of_nonneg ?_ nonneg)
    rcases signs with ⟨rfl, negative⟩ | ⟨rfl, positive⟩
    · rw [Direction.sign_counterClockwise, Scalar.sign_of_neg negative, one_mul]
      exact neg_one_lt_zero.le
    · rw [Direction.sign_clockwise, Scalar.sign_of_pos positive, mul_one]
      exact neg_one_lt_zero.le
  case onChord_iff =>
    have unit : (direction.sign * Scalar.sign r : ℝ) ≠ 0 :=
      mul_ne_zero (left_ne_zero_of_mul_eq_one direction.sign_mul_sign)
        (left_ne_zero_of_mul_eq_one (Scalar.sign_mul_sign r))
    rw [shift, side, mul_eq_zero, or_iff_right square.ne', mul_eq_zero, or_iff_right unit, zero_iff]
  case minor =>
    intro positive
    refine sweepAbout_besideChord_le chord ?_
    rw [turned, Scalar.sign_of_pos positive, one_mul]
    exact nonneg
  case major =>
    intro negative
    refine le_sweepAbout_besideChord chord ?_
    rw [turned, Scalar.sign_of_neg negative, neg_one_mul]
    exact neg_nonpos.mpr nonneg

theorem halves_middle (chord : 0 < planeDistance start target) :
    Halves start target (middleOf start target) := by
  rw [← besideChord_zero]
  refine ⟨planeDistance_besideChord start target 0, fun direction => le_antisymm ?_ ?_⟩
  · exact sweepAbout_besideChord_le chord (mul_zero direction.sign).ge
  · exact le_sweepAbout_besideChord chord (mul_zero direction.sign).le

/-- **A center solved from a radius fits it.**  A positive radius gives the arc of at most
    half a turn in either direction, and a negative one the arc of at least half a turn. -/
theorem solvesRadius (positive : 0 < tolerance) (start target : ℝ × ℝ) (r : ℝ)
    (direction : Direction) : SolvesRadius start target r direction tolerance := by
  constructor
  case center =>
    intro apart reach
    exact ⟨_, centerFromRadius_of_reach apart reach, fitsRadius (positive.trans_le apart) reach⟩
  case clamped =>
    intro apart short
    exact ⟨centerFromRadius_of_short apart short, halves_middle (positive.trans_le apart)⟩
  case undetermined => exact centerFromRadius_of_near
  case drawn =>
    rintro apart plane first last center rfl rfl
    exact Arc.sweep_of_apart (not_lt.mpr apart)

/-- The larger of both arcs between two points, about a center below them. -/
theorem solvesRadius_larger :
    (0 : ℝ) < 1 / 1000 ∧ planeDistance ((3, 0) : ℝ × ℝ) (-3, 0) = 6 ∧
      ∃ center, centerFromRadius ((3, 0) : ℝ × ℝ) (-3, 0) (-5) .clockwise (1 / 1000) =
          .center center ∧
        FitsRadius (3, 0) (-3, 0) (-5) .clockwise center ∧
        0 < leftOf (3, 0) (-3, 0) center := by
  have tolerance : (0 : ℝ) < 1 / 1000 := by norm_num
  have chord : planeDistance ((3, 0) : ℝ × ℝ) (-3, 0) = 6 := by
    refine (sq_eq_sq₀ (planeDistance_nonneg _ _) (by norm_num)).mp ?_
    rw [planeDistance_sq]
    norm_num
  have solved := solvesRadius tolerance (3, 0) (-3, 0) (-5) .clockwise
  obtain ⟨center, found, fits⟩ := solved.center (by rw [chord]; norm_num) (by rw [chord]; norm_num)
  refine ⟨tolerance, chord, center, found, fits, ?_⟩
  refine lt_of_le_of_ne (fits.left (.inr ⟨rfl, by norm_num⟩)) fun onChord => ?_
  have reach := fits.onChord_iff.mp onChord.symm
  rw [chord] at reach
  norm_num at reach

end

end NumericalControl
