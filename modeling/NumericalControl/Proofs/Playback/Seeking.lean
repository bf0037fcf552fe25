/-
  NumericalControl/Proofs/Playback/Seeking.lean
  =============================================
  **Seeking by time.**  The commands of a timely toolpath follow one another in time, so the
  times at which they end never go down, and halving finds how many of them have ended at
  a time (`Toolpath.lt_ended_iff`).  The next one is the command to look at: the time lies
  within it or in the pause in front of it.

  In exact arithmetic the part of it that is done is below one, so the cursor stands in that
  command and in no other, and later times give later positions
  (`Cursor.seeksTime_of_timely`).
-/
import NumericalControl.Proofs.Scalar.Reals
import NumericalControl.Proofs.Playback.Within

namespace NumericalControl

/-! ### Commands that have ended -/

namespace Toolpath

section

variable {α : Type} [Scalar α] {path : Toolpath α} {t : α} {i j : Nat} {c d : Command α}

/-- The commands follow one another in time, from zero on. -/
structure Timely (path : Toolpath α) : Prop where
  start : ∀ c ∈ path.commands, (0.0 : α) ≤ c.startTime
  forward : ∀ c ∈ path.commands, c.startTime ≤ c.endTime
  next : ∀ i before after, path.commands[i]? = some before → path.commands[i + 1]? = some after →
    before.endTime ≤ after.startTime

/-- How many commands have ended at a time. -/
def ended (path : Toolpath α) (t : α) : Nat :=
  partitionPoint (fun c : Command α => decide (c.endTime ≤ t)) path.commands

variable [OrderedScalar α] (timely : path.Timely)
include timely

theorem endTime_le_endTime (le : i ≤ j) (hc : path.commands[i]? = some c)
    (hd : path.commands[j]? = some d) : c.endTime ≤ d.endTime := by
  induction j, le using Nat.le_induction generalizing d with
  | base =>
    obtain rfl := Option.some.inj (hc.symm.trans hd)
    have forward := timely.forward c (Array.mem_of_getElem? hc)
    exact Decidable.not_not.mp (OrderedScalar.defined_right forward)
  | succ j _ ih =>
    obtain ⟨b, hb⟩ : ∃ b, path.commands[j]? = some b :=
      exists_command (Nat.lt_of_succ_lt (lt_size hd))
    have next := timely.next j b d hb hd
    have forward := timely.forward d (Array.mem_of_getElem? hd)
    exact OrderedScalar.le_trans (OrderedScalar.le_trans (ih hb) next) forward

theorem lt_ended_iff (hc : path.commands[i]? = some c) : i < path.ended t ↔ c.endTime ≤ t := by
  have partitioned : Partitioned (fun c : Command α => decide (c.endTime ≤ t)) path.commands := by
    intro i j le holds
    obtain ⟨d, hd, ends⟩ := holdsAt_iff.mp holds
    obtain ⟨c, hc⟩ := exists_command (Nat.lt_of_le_of_lt le (lt_size hd))
    have earlier := endTime_le_endTime timely le hc hd
    exact holdsAt_iff.mpr
      ⟨c, hc, decide_eq_true (OrderedScalar.le_trans earlier (of_decide_eq_true ends))⟩
  rw [ended, lt_partitionPoint_iff partitioned, holdsAt_iff]
  simp [hc]

end

end Toolpath

namespace Cursor

open Toolpath

section

variable {α : Type} [Scalar α] {path : Toolpath α} {t : α} {c : Command α}

theorem ofTime_of_front (front : Scalar.IsNaN t ∨ t ≤ 0.0) : ofTime path t = first path := by
  rw [ofTime, if_pos front]

theorem ofTime_of_command (positive : ¬(Scalar.IsNaN t ∨ t ≤ 0.0))
    (hc : path.commands[path.ended t]? = some c) :
    ofTime path t = ofPosition path (Scalar.ofNat (path.ended t) +
      if t ≤ c.startTime ∨ c.duration ≤ 0.0 then 0.0 else (t - c.startTime) / c.duration) := by
  rw [ended] at hc
  simp only [ofTime, if_neg positive, hc, ended]

theorem ofTime_of_none (positive : ¬(Scalar.IsNaN t ∨ t ≤ 0.0))
    (behind : path.commands[path.ended t]? = none) : ofTime path t = last path := by
  rw [ended] at behind
  simp only [ofTime, if_neg positive, behind]

end

/-! ### Exact arithmetic -/

/-- The part of a command that is done at a time before its end. -/
noncomputable def partDone (c : Command ℝ) (t : ℝ) : ℝ :=
  if t ≤ c.startTime then 0 else (t - c.startTime) / c.duration

section

variable {c : Command ℝ} {t u : ℝ}

/-- A command that a time is behind the start of, but not behind the end of, takes time. -/
theorem duration_pos (begun : ¬t ≤ c.startTime) (running : t < c.endTime) : 0 < c.duration := by
  have ends : c.endTime = c.startTime + c.duration := rfl
  linarith

theorem partDone_between (running : t < c.endTime) : 0 ≤ partDone c t ∧ partDone c t < 1 := by
  unfold partDone
  split
  · norm_num
  · rename_i begun
    have long := duration_pos begun running
    have ends : c.endTime = c.startTime + c.duration := rfl
    constructor
    · exact div_nonneg (by linarith) long.le
    · rw [div_lt_one long]
      linarith

theorem partDone_le_partDone (le : t ≤ u) (running : u < c.endTime) :
    partDone c t ≤ partDone c u := by
  by_cases before : t ≤ c.startTime
  · rw [partDone, if_pos before]
    exact (partDone_between running).1
  · have begun : ¬u ≤ c.startTime := fun early => before (le.trans early)
    have long := duration_pos begun running
    rw [partDone, partDone, if_neg before, if_neg begun]
    exact div_le_div_of_nonneg_right (by linarith) long.le

theorem add_duration_mul_partDone (running : t < c.endTime) :
    c.startTime + c.duration * partDone c t = max t c.startTime := by
  unfold partDone
  split
  · rename_i before
    rw [mul_zero, add_zero, max_eq_right before]
  · rename_i begun
    have long := duration_pos begun running
    rw [mul_div_cancel₀ _ long.ne', max_eq_left (not_le.mp begun).le, add_sub_cancel]

/-- The fraction that a cursor is sent to. The test for a command without duration finds
    none that a time is behind the start of. -/
theorem fraction_eq_partDone (running : t < c.endTime) :
    (if t ≤ c.startTime ∨ c.duration ≤ 0.0 then 0.0 else (t - c.startTime) / c.duration) =
      partDone c t := by
  have zero : (0.0 : ℝ) = 0 := by norm_num
  rw [partDone, zero]
  by_cases before : t ≤ c.startTime
  · rw [if_pos (Or.inl before), if_pos before]
  · have long := duration_pos before running
    have both : ¬(t ≤ c.startTime ∨ c.duration ≤ 0) := by
      rintro (early | short)
      · exact before early
      · exact absurd short (not_le.mpr long)
    rw [if_neg both, if_neg before]

end

variable {path : Toolpath ℝ} {t u : ℝ} {c : Command ℝ}

theorem zero_le_size : (0.0 : ℝ) ≤ Scalar.ofNat path.size := by
  have whole : (0 : ℝ) ≤ path.size := Nat.cast_nonneg path.size
  norm_num
  exact whole

theorem toolpath_ofTime (path : Toolpath ℝ) (t : ℝ) : (ofTime path t).toolpath = path := by
  obtain ⟨position, made⟩ := exists_position_ofTime path t
  rw [made]
  rfl

theorem position_ofTime_between (path : Toolpath ℝ) (t : ℝ) :
    0.0 ≤ (ofTime path t).position ∧ (ofTime path t).position ≤ Scalar.ofNat path.size := by
  obtain ⟨position, made⟩ := exists_position_ofTime path t
  rw [made]
  exact position_between zero_le_size

theorem not_front (positive : 0 < t) : ¬(Scalar.IsNaN t ∨ t ≤ 0.0) := by
  rintro (undefined | front)
  · exact Reals.defined t undefined
  · norm_num at front
    linarith

section

variable (timely : path.Timely)
include timely

theorem lt_endTime (hc : path.commands[path.ended t]? = some c) : t < c.endTime := by
  by_contra ends
  exact Nat.lt_irrefl _ ((lt_ended_iff timely hc).mpr (not_lt.mp ends))

theorem ended_le_ended (le : t ≤ u) (hc : path.commands[path.ended u]? = some c) :
    path.ended t ≤ path.ended u := by
  by_contra more
  have ends : c.endTime ≤ t := (lt_ended_iff timely hc).mp (Nat.lt_of_not_le more)
  exact Nat.lt_irrefl _ ((lt_ended_iff timely hc).mpr (ends.trans le))

theorem position_ofTime (positive : 0 < t) (hc : path.commands[path.ended t]? = some c) :
    (ofTime path t).position = path.ended t + partDone c t := by
  have running := lt_endTime timely hc
  obtain ⟨above, below⟩ := partDone_between running
  have inside : (path.ended t : ℝ) + 1 ≤ path.size := by exact_mod_cast lt_size hc
  have start : (0 : ℝ) ≤ path.ended t := Nat.cast_nonneg _
  rw [ofTime_of_command (not_front positive) hc, fraction_eq_partDone running]
  change (ofPosition path ((path.ended t : ℝ) + partDone c t)).position = _
  apply position_ofPosition
  · norm_num
    linarith
  · change (path.ended t : ℝ) + partDone c t ≤ (path.size : ℝ)
    linarith

theorem segment_ofTime (positive : 0 < t) (hc : path.commands[path.ended t]? = some c) :
    (ofTime path t).segment = (path.ended t, partDone c t) := by
  have position := position_ofTime timely positive hc
  obtain ⟨above, below⟩ := partDone_between (lt_endTime timely hc)
  have start : (0 : ℝ) ≤ path.ended t := Nat.cast_nonneg _
  have whole : ⌊(path.ended t : ℝ) + partDone c t⌋₊ = path.ended t := by
    rw [Nat.floor_eq_iff (by linarith)]
    constructor
    · linarith
    · linarith
  have inside := lt_size hc
  have floor : Scalar.floor (ofTime path t).position = path.ended t := by
    rw [position]
    exact whole
  rw [segment, toolpath_ofTime, floor, position, if_neg (by omega)]
  change (path.ended t, (path.ended t : ℝ) + partDone c t - path.ended t) = _
  rw [add_sub_cancel_left]

/-- **Later times are not in front of earlier ones.** -/
theorem position_ofTime_le (le : t ≤ u) : (ofTime path t).position ≤ (ofTime path u).position := by
  by_cases front : t ≤ 0.0
  · rw [ofTime_of_front (Or.inr front), position_first zero_le_size]
    exact (position_ofTime_between path u).1
  · have positive : 0 < t := by
      norm_num at front
      exact front
    rcases found : path.commands[path.ended u]? with _ | d
    · rw [ofTime_of_none (not_front (positive.trans_le le)) found,
        position_last zero_le_size]
      exact (position_ofTime_between path t).2
    · have before := ended_le_ended timely le found
      obtain ⟨c, hc⟩ := exists_command (Nat.lt_of_le_of_lt before (lt_size found))
      rw [position_ofTime timely positive hc, position_ofTime timely (positive.trans_le le) found]
      rcases Nat.eq_or_lt_of_le before with same | earlier
      · obtain rfl : c = d := Option.some.inj (hc.symm.trans (same ▸ found))
        have part := partDone_le_partDone le (lt_endTime timely found)
        rw [same]
        linarith
      · -- a command that is not done is less than one place long
        have below := (partDone_between (lt_endTime timely hc)).2
        have above := (partDone_between (lt_endTime timely found)).1
        have next : (path.ended t : ℝ) + 1 ≤ path.ended u := by exact_mod_cast earlier
        linarith

end

/-- The time is in a command, or in the pause in front of it. No command before it goes on
    after the time. -/
structure LandsIn (path : Toolpath ℝ) (t : ℝ) (k : Nat) (c : Command ℝ) : Prop where
  place : path.commands[k]? = some c
  running : t < c.endTime
  earlier : ∀ j d, j < k → path.commands[j]? = some d → d.endTime ≤ t
  toolpath : (ofTime path t).toolpath = path
  command : (ofTime path t).command? = some c
  segment : (ofTime path t).segment = (k, partDone c t)
  elapsed : (ofTime path t).elapsed = max t c.startTime

theorem landsIn_ofTime (timely : path.Timely) (positive : 0 < t)
    (hc : path.commands[path.ended t]? = some c) : LandsIn path t (path.ended t) c := by
  have running := lt_endTime timely hc
  have segment := segment_ofTime timely positive hc
  have command : (ofTime path t).command? = some c := by
    rw [command?, segment, toolpath_ofTime]
    exact hc
  constructor
  case place => exact hc
  case running => exact running
  case earlier =>
    intro j d before hd
    exact (lt_ended_iff timely hd).mp before
  case toolpath => exact toolpath_ofTime path t
  case command => exact command
  case segment => exact segment
  case elapsed =>
    simp only [elapsed, command, segment]
    exact add_duration_mul_partDone running

/-- What is asked of a cursor at a time. -/
structure SeeksTime (path : Toolpath ℝ) : Prop where
  front : ∀ t ≤ 0, ofTime path t = first path
  inside : ∀ t, 0 < t → (∃ c ∈ path.commands, t < c.endTime) → ∃ k c, LandsIn path t k c
  behind : ∀ t, 0 < t → (∀ c ∈ path.commands, c.endTime ≤ t) → ofTime path t = last path
  monotone : Monotone fun t => (ofTime path t).position

/-- **Seeking by time finds the command that the time is in**, and the undefined value
    counts as the start. -/
theorem seeksTime_of_timely (timely : path.Timely) :
    SeeksTime path ∧ ∀ (rounded : Toolpath Float) (t : Float), Scalar.IsNaN t ∨ t ≤ 0.0 →
      ofTime rounded t = first rounded := by
  refine ⟨?_, fun rounded t => ofTime_of_front⟩
  constructor
  case front =>
    intro t nonpos
    apply ofTime_of_front
    norm_num [nonpos]
  case inside =>
    rintro t positive ⟨d, mem, running⟩
    obtain ⟨j, hd⟩ := Array.mem_iff_getElem?.mp mem
    have reached : path.ended t ≤ j := by
      by_contra passed
      exact absurd ((lt_ended_iff timely hd).mp (Nat.lt_of_not_le passed)) (not_le.mpr running)
    obtain ⟨c, hc⟩ := exists_command (Nat.lt_of_le_of_lt reached (lt_size hd))
    exact ⟨_, c, landsIn_ofTime timely positive hc⟩
  case behind =>
    intro t positive past
    apply ofTime_of_none (not_front positive)
    rcases found : path.commands[path.ended t]? with _ | c
    · rfl
    · have running := lt_endTime timely found
      exact absurd (past c (Array.mem_of_getElem? found)) (not_le.mpr running)
  case monotone => exact fun t u le => position_ofTime_le timely le

/-- A command that stays where it is for a time. -/
noncomputable def stay (startTime duration : ℝ) : Command ℝ where
  index := 0
  line := 1
  source := ""
  motion := .linear
  start := .zero
  target := .zero
  arc := none
  feedRate := 0
  spindleSpeed := 0
  isRapid := false
  phase := none
  cutter := none
  length := 0
  rotaryTravel := 0
  startTime := startTime
  duration := duration
  bounds := .ofPoint .zero
  state := .initial

@[simp] theorem stay_startTime (startTime duration : ℝ) :
    (stay startTime duration).startTime = startTime :=
  rfl

@[simp] theorem stay_endTime (startTime duration : ℝ) :
    (stay startTime duration).endTime = startTime + duration :=
  rfl

/-- Six seconds, a pause of three, a command that takes no time, and six seconds. -/
noncomputable def paused : Toolpath ℝ where
  commands := #[stay 0 6, stay 9 0, stay 9 6]
  stats := ⟨0, 0, 0, 0, 3, 15, .ofPoint .zero, 3⟩
  diagnostics := #[]

theorem mem_paused {c : Command ℝ} (mem : c ∈ paused.commands) :
    c = stay 0 6 ∨ c = stay 9 0 ∨ c = stay 9 6 := by
  simpa [paused] using mem

theorem timely_paused : paused.Timely := by
  constructor
  case start =>
    intro c mem
    rcases mem_paused mem with rfl | rfl | rfl <;> norm_num
  case forward =>
    intro c mem
    rcases mem_paused mem with rfl | rfl | rfl <;> norm_num
  case next =>
    rintro (_ | _ | i) before after hb ha
    · simp [paused] at hb ha
      subst hb ha
      norm_num
    · simp [paused] at hb ha
      subst hb ha
      norm_num
    · simp [paused] at ha

/-- A time in the pause, which is told as its end, and a time behind all commands. -/
theorem seeksTime_paused :
    paused.Timely ∧ SeeksTime paused ∧ (ofTime paused 7).elapsed = 9 ∧
      ofTime paused 15 = last paused := by
  obtain ⟨seeks, -⟩ := seeksTime_of_timely timely_paused
  have waiting : (ofTime paused 7).elapsed = 9 := by
    obtain ⟨k, c, lands⟩ :=
      seeks.inside 7 (by norm_num) ⟨stay 9 6, by simp [paused], by norm_num⟩
    have running := lands.running
    rw [lands.elapsed]
    rcases mem_paused (Array.mem_of_getElem? lands.place) with rfl | rfl | rfl
    · norm_num at running
    · norm_num
    · norm_num
  have finished : ofTime paused 15 = last paused := by
    apply seeks.behind 15 (by norm_num)
    intro c mem
    rcases mem_paused mem with rfl | rfl | rfl <;> norm_num
  exact ⟨timely_paused, seeks, waiting, finished⟩

end Cursor

end NumericalControl
