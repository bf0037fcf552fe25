/-
  NumericalControl/Proofs/Modal/Series.lean
  =========================================
  **Series of holes.**  Holes belong to one series as long as the memory never stands
  outside the drill cycle between them (`Program.InCycle`), whatever other lines come in
  between.  The first hole of a series latches the level at which the tool stands, and
  every further one takes that level (`Program.level_of_opens`); so the levels of a hole
  hang on the registers and the distance mode alone and do not drift
  (`Program.seriesLaw`).

  The latched level is a number without an axis.  It is the level of the tool along the
  tool axis of the line that latched it, and a line that drills along another axis reads
  it along its own.  A tool that goes back to the initial level is therefore safe along
  the axis on which the series began, and along its own axis exactly when the level is
  not below the place where the tool stood on it (`Program.retract_safe`).
-/
import NumericalControl.Proofs.Binary64.Order
import NumericalControl.Proofs.Modal.Hole
import NumericalControl.Proofs.Modal.Program

namespace NumericalControl

variable {α : Type} [Scalar α]

namespace Program

section

variable (program : Program α)

/-- The hole that a line drills. -/
def hole? (n : Nat) : Option (Hole α) := (program.outcome n).request.hole

/-- From after line `i` until before line `j` the memory never stands outside the drill
    cycle. -/
def InCycle (i j : Nat) : Prop := ∀ k ≤ j, i < k → (program.before k).motion = some .drill

instance (i j : Nat) : Decidable (program.InCycle i j) :=
  inferInstanceAs (Decidable (∀ k, k ≤ j → _))

/-- The line drills the first hole of its series. -/
def Opens (i : Nat) : Prop :=
  (program.hole? i).isSome ∧ ∀ k < i, (program.hole? k).isSome → ¬program.InCycle k i

instance (i : Nat) : Decidable (program.Opens i) := inferInstanceAs (Decidable (_ ∧ _))

def toolAxis (n : Nat) : Axis := (program.before (n + 1)).plane.normal

/-- How a program drills its holes. -/
structure SeriesLaw : Prop where
  /-- A level is latched exactly when a hole was drilled since the memory last stood
      outside the drill cycle. -/
  latched_iff : ∀ n, (program.before n).drill.initialLevel.isSome ↔
    ∃ i < n, (program.hole? i).isSome ∧ program.InCycle i n
  inCycle : ∀ n, (program.before n).drill.initialLevel.isSome →
    (program.before n).motion = some .drill
  opened : ∀ j, (program.hole? j).isSome → ∃ i ≤ j, program.Opens i ∧ program.InCycle i j
  /-- The holes of a series share the level of the tool before the first one, along the
      axis of that one. -/
  level : ∀ i j hole, program.Opens i → i ≤ j → program.InCycle i j →
    program.hole? j = some hole →
      hole.initialLevel = (program.before i).position.get (program.toolAxis i)
  /-- Equal registers give equal levels within a series. -/
  steady : ∀ i j first hole, i ≤ j → program.InCycle i j →
    program.hole? i = some first → program.hole? j = some hole →
    (program.before (i + 1)).distance = (program.before (j + 1)).distance →
    (program.before (i + 1)).drill.rPlane = (program.before (j + 1)).drill.rPlane →
    (program.before (i + 1)).drill.depth = (program.before (j + 1)).drill.depth →
      first.rPlane = hole.rPlane ∧ first.depth = hole.depth
  leaves : ∀ n hole, program.hole? n = some hole →
    (program.before (n + 1)).position.get (program.toolAxis n) = hole.retract
  retract : ∀ n hole, program.hole? n = some hole →
    ((program.before (n + 1)).drill.retract = .rPlane → hole.retract = hole.rPlane) ∧
    ((program.before (n + 1)).drill.retract = .initialLevel →
      hole.retract = Scalar.max hole.initialLevel hole.rPlane)

end

variable {program : Program α} {i j k n : Nat} {level : α} {first hole : Hole α}

/-! ### Stretches within the cycle -/

theorem InCycle.refl (i : Nat) : program.InCycle i i :=
  fun _ below above => absurd above (Nat.not_lt.mpr below)

theorem InCycle.trans (h₁ : program.InCycle i j) (h₂ : program.InCycle j k) :
    program.InCycle i k := by
  intro n below above
  by_cases early : n ≤ j
  · exact h₁ n early above
  · exact h₂ n below (Nat.lt_of_not_le early)

theorem InCycle.of_le (h : program.InCycle i j) (hk : i ≤ k) : program.InCycle k j :=
  fun n below above => h n below (Nat.lt_of_le_of_lt hk above)

theorem inCycle_succ (h : (program.before (n + 1)).motion = some .drill) :
    program.InCycle n (n + 1) := by
  intro k below above
  rw [Nat.le_antisymm below above]
  exact h

/-! ### One line -/

theorem carries (program : Program α) (n : Nat) :
    (program.outcome n).Carries (program.before n).position
      (program.before n).drill.initialLevel :=
  State.carries_apply _ _

theorem drills (h : program.hole? n = some hole) :
    (program.outcome n).Drills (program.before n).position
      (program.before n).drill.initialLevel hole :=
  (program.carries n).drills hole h

/-- A hole takes the level that is latched, or else the level of the tool. -/
theorem level_of_hole (h : program.hole? n = some hole) :
    hole.initialLevel = (program.before n).drill.initialLevel.getD
      ((program.before n).position.get (program.toolAxis n)) := by
  obtain ⟨r, d, -, -, level, -, -⟩ := Hole.ofRegisters?_eq_some (drills h).levels
  exact level

theorem latched_succ (h : (program.before n).drill.initialLevel = some level)
    (inside : (program.before (n + 1)).motion = some .drill) :
    (program.before (n + 1)).drill.initialLevel = some level := by
  cases drilled : program.hole? n with
  | none =>
    have kept : (program.before (n + 1)).drill.initialLevel =
        if (program.before (n + 1)).motion = some .drill then
          (program.before n).drill.initialLevel else none := (program.carries n).idle drilled
    rw [if_pos inside, h] at kept
    exact kept
  | some hole =>
    have taken := level_of_hole drilled
    rw [h, Option.getD_some] at taken
    exact taken ▸ (drills drilled).latches

/-- Where a level is latched after a line, the line drilled a hole or found it latched, and
    the memory is in the cycle. -/
theorem latched_of_succ (h : (program.before (n + 1)).drill.initialLevel.isSome) :
    (program.before (n + 1)).motion = some .drill ∧
      ((program.hole? n).isSome ∨ (program.before n).drill.initialLevel.isSome) := by
  cases drilled : program.hole? n with
  | none =>
    have kept : (program.before (n + 1)).drill.initialLevel = _ :=
      (program.carries n).idle drilled
    rw [kept] at h
    split at h
    · exact ⟨‹_›, .inr h⟩
    · cases h
  | some hole => exact ⟨(drills drilled).motion, .inl rfl⟩

/-! ### Whole series -/

theorem latched_of_inCycle (inside : program.InCycle i j) (le : i ≤ j)
    (h : (program.before i).drill.initialLevel = some level) :
    (program.before j).drill.initialLevel = some level := by
  induction le with
  | refl => exact h
  | @step n le ih =>
    have before : program.InCycle i n :=
      fun k below above => inside k (Nat.le_succ_of_le below) above
    exact latched_succ (ih before) (inside (n + 1) (Nat.le_refl _) (Nat.lt_succ_of_le le))

theorem level_of_inCycle (inside : program.InCycle i j) (le : i ≤ j)
    (hfirst : program.hole? i = some first) (hhole : program.hole? j = some hole) :
    first.initialLevel = hole.initialLevel := by
  rcases Nat.eq_or_lt_of_le le with rfl | lt
  · exact congrArg Hole.initialLevel (Option.some.inj (hfirst.symm.trans hhole))
  · have latched : (program.before j).drill.initialLevel = some first.initialLevel :=
      latched_of_inCycle (inside.of_le (Nat.le_succ i)) lt (drills hfirst).latches
    rw [level_of_hole hhole, latched, Option.getD_some]

/-- **A level is latched exactly when a hole was drilled since the memory last stood
    outside the drill cycle.** -/
theorem latched_iff (n : Nat) : (program.before n).drill.initialLevel.isSome ↔
    ∃ i < n, (program.hole? i).isSome ∧ program.InCycle i n := by
  constructor
  · intro h
    induction n with
    | zero => cases h
    | succ n ih =>
      obtain ⟨inside, drilled | latched⟩ := latched_of_succ h
      · exact ⟨n, Nat.lt_succ_self n, drilled, inCycle_succ inside⟩
      · obtain ⟨i, lt, drilled, before⟩ := ih latched
        exact ⟨i, Nat.lt_succ_of_lt lt, drilled, before.trans (inCycle_succ inside)⟩
  · rintro ⟨i, lt, drilled, inside⟩
    obtain ⟨hole, hhole⟩ := Option.isSome_iff_exists.mp drilled
    rw [latched_of_inCycle (inside.of_le (Nat.le_succ i)) lt (drills hhole).latches]
    rfl

/-- Every hole belongs to a series that some line opened. -/
theorem exists_opens (drilled : (program.hole? j).isSome) :
    ∃ i ≤ j, program.Opens i ∧ program.InCycle i j := by
  induction j using Nat.strongRecOn with
  | ind j ih =>
    -- a hole that does not open its series has an earlier one in it, which is closer to the start
    by_cases opens : program.Opens j
    · exact ⟨j, Nat.le_refl j, opens, InCycle.refl j⟩
    · obtain ⟨k, lt, hk, inside⟩ :
          ∃ k < j, (program.hole? k).isSome ∧ program.InCycle k j := by
        simpa [Opens, drilled] using opens
      obtain ⟨i, le, opens, before⟩ := ih k lt hk
      exact ⟨i, Nat.le_trans le (Nat.le_of_lt lt), opens, before.trans inside⟩

/-- **The holes of a series share the level at which it began**, along the axis on which
    it began. -/
theorem level_of_opens (opens : program.Opens i) (le : i ≤ j) (inside : program.InCycle i j)
    (h : program.hole? j = some hole) :
    hole.initialLevel = (program.before i).position.get (program.toolAxis i) := by
  obtain ⟨first, hfirst⟩ := Option.isSome_iff_exists.mp opens.1
  have unlatched : (program.before i).drill.initialLevel = none := by
    rw [← Option.not_isSome_iff_eq_none, latched_iff]
    rintro ⟨k, lt, drilled, before⟩
    exact opens.2 k lt drilled before
  rw [← level_of_inCycle inside le hfirst h, level_of_hole hfirst, unlatched, Option.getD_none]

/-- **Equal registers give equal levels within a series**, in both distance modes. -/
theorem levels_of_inCycle (le : i ≤ j) (inside : program.InCycle i j)
    (hfirst : program.hole? i = some first) (hhole : program.hole? j = some hole)
    (distance : (program.before (i + 1)).distance = (program.before (j + 1)).distance)
    (rPlane : (program.before (i + 1)).drill.rPlane = (program.before (j + 1)).drill.rPlane)
    (depth : (program.before (i + 1)).drill.depth = (program.before (j + 1)).drill.depth) :
    first.rPlane = hole.rPlane ∧ first.depth = hole.depth := by
  obtain ⟨r, d, hr, hd, -, levels, -⟩ := Hole.ofRegisters?_eq_some (drills hfirst).levels
  obtain ⟨r', d', hr', hd', -, levels', -⟩ := Hole.ofRegisters?_eq_some (drills hhole).levels
  -- the level is that of the series, the words are the same, and so is their meaning
  obtain rfl : r = r' := Option.some.inj (hr.symm.trans (rPlane.trans hr'))
  obtain rfl : d = d' := Option.some.inj (hd.symm.trans (depth.trans hd'))
  have same : (program.outcome i).state.distance = (program.outcome j).state.distance := distance
  rw [level_of_inCycle inside le hfirst hhole, same, ← levels'] at levels
  exact Prod.mk.inj levels

theorem retract_of_hole (h : program.hole? n = some hole) :
    hole.retract =
      Hole.retractLevel (program.before (n + 1)).drill.retract hole.initialLevel hole.rPlane := by
  obtain ⟨r, d, -, -, -, -, retract⟩ := Hole.ofRegisters?_eq_some (drills h).levels
  exact retract

/-- **Every program drills its holes in series.** -/
theorem seriesLaw (program : Program α) : program.SeriesLaw where
  latched_iff := latched_iff
  inCycle n h := by
    refine (program.reachable_before n).settled.resolve_right fun unlatched => ?_
    rw [unlatched] at h
    cases h
  opened _ := exists_opens
  level _ _ _ := level_of_opens
  steady _ _ _ _ := levels_of_inCycle
  leaves _ _ h := (drills h).leaves
  retract n hole h := by
    rw [retract_of_hole h]
    exact ⟨fun mode => by rw [mode]; rfl, fun mode => by rw [mode]; rfl⟩

/-- **Back at the initial level a hole does not end at its R plane.**  The tool started
    at Z10, the R plane is Z2, and the hole ends at Z10. -/
theorem retract_above_rPlane :
    let program : Program Float := .ofTexts ["G0 Z10", "G81 X1 R2 Z-3 F50"]
    ∃ hole, program.hole? 1 = some hole ∧ hole.rPlane = 2.0 ∧ hole.retract = 10.0 ∧
      (program.before 2).position.get (program.toolAxis 1) ≠ hole.rPlane := by
  intro program
  refine ⟨⟨10.0, 2.0, -3.0, 10.0⟩, ?_⟩
  decide +kernel

/-! ### The way back -/

/-- **A tool that goes back to the initial level** is not below the R plane, nor below the
    place where it stood before the series along the axis on which the series began.  Along
    the axis of the hole itself that place is not above it exactly when it is not above one
    of those two levels. -/
theorem retract_safe [OrderedScalar α] (opens : program.Opens i) (le : i ≤ j)
    (inside : program.InCycle i j) (h : program.hole? j = some hole)
    (mode : (program.before (j + 1)).drill.retract = .initialLevel)
    (start : ¬Scalar.IsNaN ((program.before i).position.get (program.toolAxis i)))
    (rPlane : ¬Scalar.IsNaN hole.rPlane) :
    let place := (program.before i).position
    hole.rPlane ≤ hole.retract ∧ place.get (program.toolAxis i) ≤ hole.retract ∧
      (place.get (program.toolAxis j) ≤ hole.retract ↔
        place.get (program.toolAxis j) ≤ place.get (program.toolAxis i) ∨
          place.get (program.toolAxis j) ≤ hole.rPlane) := by
  intro place
  have level := level_of_opens opens le inside h
  have retract : hole.retract = Scalar.max (place.get (program.toolAxis i)) hole.rPlane := by
    rw [retract_of_hole h, mode, level]
    rfl
  rw [retract]
  refine ⟨Scalar.le_max (.inr (Decidable.not_not.mp rPlane)),
    Scalar.le_max (.inl (Decidable.not_not.mp start)), ?_, Scalar.le_max⟩
  intro above
  rcases Scalar.max_eq_or (place.get (program.toolAxis i)) hole.rPlane with same | same
  · exact .inl (same ▸ above)
  · exact .inr (same ▸ above)

theorem retract_safe_second_hole :
    let program : Program Float :=
      .ofTexts ["G0 Z10", "G99 G81 X1 R2 Z-3 F50", "G98 X5"]
    ∃ hole, program.hole? 2 = some hole ∧ hole.rPlane ≤ hole.retract ∧
      (program.before 1).position.get (program.toolAxis 1) ≤ hole.retract := by
  intro program
  have opens : program.Opens 1 := by decide +kernel
  have inside : program.InCycle 1 2 := by decide +kernel
  have second : program.hole? 2 = some ⟨10.0, 2.0, -3.0, 10.0⟩ := by decide +kernel
  obtain ⟨above, back, -⟩ := retract_safe opens (by decide) inside second (by decide +kernel)
    (by decide +kernel) (by decide +kernel)
  exact ⟨_, second, above, back⟩

/-- **A plane chosen within a series sends the tool below its start.**  The series begins
    along Z, at Z10; the second hole is drilled along Y, where the tool stood at Y50, and
    ends at Y10. -/
theorem retract_below_start :
    let program : Program Float :=
      .ofTexts ["G0 Y50 Z10", "G81 X1 R2 Z-3 F50", "G18 X5 Y-3"]
    program.Opens 1 ∧ program.InCycle 1 2 ∧
      (program.before 3).drill.retract = .initialLevel ∧
      ∃ hole, program.hole? 2 = some hole ∧ program.toolAxis 2 = .y ∧
        ¬Scalar.IsNaN hole.rPlane ∧ hole.retract = 10.0 ∧
        (program.before 1).position = ⟨0.0, 50.0, 10.0, 0.0, 0.0⟩ ∧
        hole.retract < (program.before 1).position.get (program.toolAxis 2) := by
  intro program
  refine ⟨by decide +kernel, by decide +kernel, by decide +kernel, ⟨10.0, 2.0, -3.0, 10.0⟩, ?_⟩
  decide +kernel

end Program

end NumericalControl
