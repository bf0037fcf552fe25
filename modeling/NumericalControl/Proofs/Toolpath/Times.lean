/-
  NumericalControl/Proofs/Toolpath/Times.lean
  ===========================================
  **When the times of a toolpath are in order.**  The clock of a builder moves by pauses,
  which are never negative, and by the durations of commands.  A duration is a distance
  over a feed, and it is below zero never, but it is undefined for an undefined distance
  and for an infinite one at an infinite feed (`Command.Untimed`).  As long as no command
  is untimed the clock never goes back, since a sum of binary64 values that are not
  negative never falls below its first part, and every command ends before the next one
  begins (`Builder.InOrder`).

  So the times of a toolpath are in order exactly when none of its commands is untimed.
-/
import NumericalControl.Proofs.Binary64.Forward
import NumericalControl.Proofs.Toolpath.Run

namespace NumericalControl

open Scalar

/-! ### Durations -/

section

variable {α : Type} [Scalar α]

/-- A distance that no time can be told for at a feed: it is undefined, or it is infinite
    and the feed is too. -/
def Untimed (distance feed : α) : Prop :=
  (0.0 : α) < feed ∧
    (IsNaN distance ∨
      travelTolerance < distance ∧ isFinite distance = false ∧ isFinite feed = false)

instance (distance feed : α) : Decidable (Untimed distance feed) :=
  inferInstanceAs (Decidable (_ ∧ _))

namespace Command

/-- The duration that the measures of a command give on a machine. -/
def travelTime (machine : Parameters α) (c : Command α) : α :=
  (moveTime? c.length c.rotaryTravel (machine.feedOf c.isRapid c.feedRate)).getD 0.0

/-- No time can be told for the command. -/
def Untimed (machine : Parameters α) (c : Command α) : Prop :=
  NumericalControl.Untimed (timedTravel c.length c.rotaryTravel)
    (machine.feedOf c.isRapid c.feedRate)

instance (machine : Parameters α) (c : Command α) : Decidable (c.Untimed machine) :=
  inferInstanceAs (Decidable (NumericalControl.Untimed _ _))

end Command

end

theorem zero_le_zero : (0.0 : Float) ≤ 0.0 := by decide +kernel

theorem zero_le_travelTolerance : (0.0 : Float) ≤ travelTolerance := by decide +kernel

/-- **A duration is never negative, unless no time can be told.** -/
theorem duration_nonneg {length rotaryTravel feed : Float}
    (h : ¬Untimed (timedTravel length rotaryTravel) feed) :
    (0.0 : Float) ≤ (moveTime? length rotaryTravel feed).getD 0.0 := by
  unfold moveTime?
  dsimp only
  generalize timedTravel length rotaryTravel = distance at h ⊢
  split
  · exact zero_le_zero
  · rename_i far
    split
    · rename_i moving
      have defined : ¬IsNaN distance := fun undefined => h ⟨moving, .inl undefined⟩
      have tolerance : ¬IsNaN (travelTolerance : Float) :=
        OrderedScalar.defined_right zero_le_travelTolerance
      have beyond : travelTolerance ≤ distance :=
        (OrderedScalar.le_total tolerance defined).resolve_right far
      have finite : isFinite distance = true ∨ isFinite feed = true := by
        by_contra infinite
        rw [not_or, Bool.not_eq_true, Bool.not_eq_true] at infinite
        exact h ⟨moving, .inr ⟨OrderedScalar.lt_iff.mpr ⟨beyond, far⟩, infinite⟩⟩
      refine Binary64.mul_nonneg ?_ (by decide +kernel) (by decide +kernel)
      exact Binary64.div_nonneg (OrderedScalar.le_trans zero_le_travelTolerance beyond) moving
        finite
    · exact zero_le_zero

theorem isNaN_duration {length rotaryTravel feed : Float}
    (h : Untimed (timedTravel length rotaryTravel) feed) :
    IsNaN ((moveTime? length rotaryTravel feed).getD 0.0) := by
  unfold moveTime?
  dsimp only
  generalize timedTravel length rotaryTravel = distance at h ⊢
  obtain ⟨moving, untold⟩ := h
  have far : ¬distance ≤ travelTolerance := by
    rcases untold with undefined | ⟨beyond, -⟩
    · exact fun near => OrderedScalar.defined_left near undefined
    · exact (OrderedScalar.lt_iff.mp beyond).2
  rw [if_neg far, if_pos moving]
  refine Binary64.isNaN_mul ?_
  rcases untold with undefined | ⟨beyond, infinite, infinite'⟩
  · exact Binary64.isNaN_div undefined
  · have positive : (0.0 : Float) < distance := by
      obtain ⟨beyond, -⟩ := OrderedScalar.lt_iff.mp beyond
      refine OrderedScalar.lt_iff.mpr
        ⟨OrderedScalar.le_trans zero_le_travelTolerance beyond, fun below => ?_⟩
      exact far (OrderedScalar.le_trans below zero_le_travelTolerance)
    exact Binary64.isNaN_div_of_infinite positive moving infinite infinite'

theorem Command.travelTime_nonneg {machine : Parameters Float} {c : Command Float}
    (h : ¬c.Untimed machine) : (0.0 : Float) ≤ c.travelTime machine :=
  duration_nonneg h

theorem Command.isNaN_travelTime {machine : Parameters Float} {c : Command Float}
    (h : c.Untimed machine) : IsNaN (c.travelTime machine) :=
  isNaN_duration h

namespace Builder

/-! ### Times along a run -/

/-- The commands follow one another in time, and the clock has come to their end. -/
structure InOrder (b : Builder Float) : Prop where
  clock : (0.0 : Float) ≤ b.totals.clock
  times : ∀ c ∈ b.commands, (0.0 : Float) ≤ c.startTime ∧ (0.0 : Float) ≤ c.duration
  next : ∀ i before after, b.commands[i]? = some before → b.commands[i + 1]? = some after →
    before.endTime ≤ after.startTime
  last : ∀ c, b.commands.back? = some c → c.endTime ≤ b.totals.clock

/-- The durations are those of the measures, and the commands are in order as long as a
    time can be told for each. -/
structure Timed (b : Builder Float) : Prop where
  duration : ∀ c ∈ b.commands, c.duration = c.travelTime b.setup.machine
  inOrder : (∀ c ∈ b.commands, ¬c.Untimed b.setup.machine) → b.InOrder

/-- The setup, the commands and the totals are all that the times depend on. -/
theorem Timed.of_eq {b other : Builder Float} (h : b.Timed) (setup : other.setup = b.setup)
    (commands : other.commands = b.commands) (totals : other.totals = b.totals) :
    other.Timed := by
  constructor
  · rw [setup, commands]
    exact h.duration
  · rw [setup, commands]
    intro told
    obtain ⟨clock, times, next, last⟩ := h.inOrder told
    constructor
    · rw [totals]
      exact clock
    · rw [commands]
      exact times
    · rw [commands]
      exact next
    · rw [commands, totals]
      exact last

theorem timed_of_start {setup : Setup Float} {b : Builder Float} (h : start setup = .ok b) :
    b.Timed := by
  obtain ⟨-, rfl⟩ := eq_of_start h
  constructor
  · intro c mem
    exact absurd mem (Array.not_mem_empty c)
  · intro _
    constructor
    case clock => exact zero_le_zero
    case times =>
      intro c mem
      exact absurd mem (Array.not_mem_empty c)
    case next => exact fun _ _ _ h => nomatch h
    case last => exact fun _ h => nomatch h

theorem InOrder.pause {b : Builder Float} (h : b.InOrder) {seconds : Float}
    (forward : (0.0 : Float) ≤ seconds) :
    { b with totals := b.totals.addDwell (some seconds) }.InOrder where
  clock := Binary64.add_nonneg h.clock forward
  times := h.times
  next := h.next
  last c hc := OrderedScalar.le_trans (h.last c hc) (Binary64.le_add h.clock forward)

theorem InOrder.addSegment {b : Builder Float} (h : b.InOrder) (source : String)
    (after : State Float) (segment : Segment Float)
    (forward : (0.0 : Float) ≤ (b.commandOf source after segment).duration) :
    (b.addSegment source after segment).InOrder := by
  let command := b.commandOf source after segment
  have clock : (0.0 : Float) ≤ command.endTime := Binary64.add_nonneg h.clock forward
  constructor
  case clock => exact clock
  case times =>
    intro c mem
    rcases Array.mem_push.mp mem with mem | rfl
    · exact h.times c mem
    · exact ⟨h.clock, forward⟩
  case next =>
    intro i before other hbefore hother
    change (b.commands.push command)[i]? = some before at hbefore
    change (b.commands.push command)[i + 1]? = some other at hother
    rw [Array.getElem?_push] at hbefore hother
    split at hother
    · rename_i full
      rw [if_neg (by omega)] at hbefore
      obtain rfl := Option.some.inj hother
      refine h.last before ?_
      rw [Array.back?_eq_getElem?, ← full]
      exact hbefore
    · have within : i + 1 < b.commands.size := (Array.getElem?_eq_some_iff.mp hother).1
      rw [if_neg (by omega)] at hbefore
      exact h.next i before other hbefore hother
  case last =>
    intro c hc
    rw [show (b.addSegment source after segment).commands = b.commands.push command from rfl,
      Array.back?_push] at hc
    obtain rfl := Option.some.inj hc
    exact Decidable.not_not.mp (OrderedScalar.defined_right clock)

/-- **Every small step keeps the times in order, as long as a time can be told.** -/
theorem Step.timed {b next : Builder Float} (step : Step b next) (h : b.Timed) : next.Timed := by
  cases step with
  | count => exact h.of_eq rfl rfl rfl
  | note => exact h.of_eq rfl rfl rfl
  | remember => exact h.of_eq rfl rfl rfl
  | pause forward => exact ⟨h.duration, fun told => (h.inOrder told).pause forward⟩
  | segment source after segment =>
    have pushed : ∀ c, c ∈ (b.addSegment source after segment).commands ↔
        c ∈ b.commands ∨ c = b.commandOf source after segment := fun c => Array.mem_push
    have duration : (b.commandOf source after segment).duration =
        (b.commandOf source after segment).travelTime b.setup.machine := rfl
    constructor
    · intro c mem
      rcases (pushed c).mp mem with mem | rfl
      · exact h.duration c mem
      · exact duration
    · intro told
      have before := h.inOrder fun c mem => told c ((pushed c).mpr (.inl mem))
      have told := told (b.commandOf source after segment) ((pushed _).mpr (.inr rfl))
      refine before.addSegment source after segment ?_
      rw [duration]
      exact Command.travelTime_nonneg told

end Builder

/-! ### Toolpaths -/

namespace Toolpath

/-- **The times are in order**: they are defined, no duration is negative, each command
    ends before the next one begins, and the last one before the toolpath does. -/
structure InOrder (path : Toolpath Float) : Prop where
  defined : ∀ c ∈ path.commands, ¬IsNaN c.startTime ∧ ¬IsNaN c.duration
  forward : ∀ c ∈ path.commands, (0.0 : Float) ≤ c.duration ∧ c.startTime ≤ c.endTime
  next : ∀ i before after, path.commands[i]? = some before → path.commands[i + 1]? = some after →
    before.endTime ≤ after.startTime
  last : ∀ c, path.commands.back? = some c → c.endTime ≤ path.stats.estimatedTime

/-- **The times of a toolpath are in order exactly when a time can be told for each of its
    commands.** -/
theorem inOrder_iff {setup : Setup Float} {text : String} {path : Toolpath Float}
    (built : Toolpath.build setup text = .ok path) :
    path.InOrder ↔ ∀ c ∈ path.commands, ¬c.Untimed setup.machine := by
  obtain ⟨b, hstart, hfinish⟩ := Toolpath.run_of_build built
  obtain ⟨commands, -, time⟩ := Builder.toolpath_of_finish hfinish
  have steps := Builder.steps_foldl_takeLine (programLines text) b
  have setup_eq := steps.setup_eq.trans (Builder.setup_of_start hstart)
  have timed := steps.keeps Builder.Step.timed (Builder.timed_of_start hstart)
  generalize (programLines text).foldl Builder.takeLine b = last at commands time setup_eq timed
  subst setup_eq
  constructor
  · intro inOrder c mem untimed
    refine (inOrder.defined c mem).2 ?_
    rw [timed.duration c (commands ▸ mem)]
    exact Command.isNaN_travelTime untimed
  · intro told
    rw [commands] at told
    obtain ⟨clock, times, next, last⟩ := timed.inOrder told
    constructor
    case defined =>
      intro c mem
      obtain ⟨start, duration⟩ := times c (commands ▸ mem)
      exact ⟨OrderedScalar.defined_right start, OrderedScalar.defined_right duration⟩
    case forward =>
      intro c mem
      obtain ⟨start, duration⟩ := times c (commands ▸ mem)
      exact ⟨duration, Binary64.le_add start duration⟩
    case next => rw [commands]; exact next
    case last => rw [commands, time]; exact last

theorem inOrder_with_pause :
    let setup : Setup Float := ⟨.ofRapidFeed 5000.0, .empty⟩
    ∃ path, Toolpath.build setup "G1 X10 F600\nG4 P2\nG0 Z5" = .ok path ∧ path.InOrder := by
  intro setup
  have run : (Toolpath.build setup "G1 X10 F600\nG4 P2\nG0 Z5").toOption.any (fun path =>
      path.commands.all fun c => decide (¬c.Untimed setup.machine)) = true := by
    decide +kernel
  obtain ⟨path, built, told⟩ := Toolpath.exists_of_any run
  refine ⟨path, built, (inOrder_iff built).mpr ?_⟩
  intro c mem
  obtain ⟨i, hi, rfl⟩ := Array.mem_iff_getElem.mp mem
  exact of_decide_eq_true (Array.all_eq_true.mp told i hi)

/-- **An infinite offset leaves a duration undefined.**  The parameters make sense, the
    offset is infinite at both ends of a rotary move, and their distance is no number. -/
theorem not_inOrder_infinite_offset :
    let setup : Setup Float := {
      machine := .ofRapidFeed 5000.0
      offsets := ⟨WorkOffsets.empty.insert "G54" ⟨0.0, 0.0, 0.0, Binary64.infinity, 0.0⟩, .empty⟩ }
    setup.machine.check = .ok () ∧
      ∃ path, Toolpath.build setup "G1 A90 F100" = .ok path ∧ ¬path.InOrder := by
  intro setup
  have run : (Toolpath.build setup "G1 A90 F100").toOption.any (fun path =>
      path.commands.any fun c => decide (IsNaN c.duration)) = true := by
    decide +kernel
  obtain ⟨path, built, undefined⟩ := Toolpath.exists_of_any run
  obtain ⟨i, hi, undefined⟩ := Array.any_eq_true.mp undefined
  refine ⟨by decide +kernel, path, built, fun inOrder => ?_⟩
  exact (inOrder.defined path.commands[i] (Array.getElem_mem hi)).2 (of_decide_eq_true undefined)

end Toolpath

end NumericalControl
