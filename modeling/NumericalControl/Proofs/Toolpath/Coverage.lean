/-
  NumericalControl/Proofs/Toolpath/Coverage.lean
  ==============================================
  **Boxes cover the way between the ends.**  The box of a command is made from its ends and
  from the circle of its arc, and over the real numbers no point of the command lies outside
  of what these reach.  That holds of every arc, since only its radii count: the angle at
  which it ends may miss the end of the command.

  The box of the toolpath spans what all commands reach, so it holds every pose that playback
  can show.  And a command that is not told to leave the travel limits does not leave them on
  its way (`Toolpath.covered_of_build`).
-/
import NumericalControl.Playback
import NumericalControl.Proofs.Arc
import NumericalControl.Proofs.Toolpath.ArcOffset
import NumericalControl.Proofs.Toolpath.Bounds

namespace NumericalControl

/-! ### Commands -/

/-- **A command stays within what it reaches**, at every fraction of it. -/
theorem Command.positionAt_between {c : Command ℝ}
    (measured : ∀ arc, c.arc = some arc → arc.Measured) {axis : Axis} {lo hi : ℝ}
    (within : ∀ v ∈ c.reached axis, lo ≤ v ∧ v ≤ hi) (t : ℝ) :
    lo ≤ (c.positionAt t).get axis ∧ (c.positionAt t).get axis ≤ hi := by
  have start : lo ≤ c.start.get axis ∧ c.start.get axis ≤ hi := within _ List.mem_cons_self
  have target : lo ≤ c.target.get axis ∧ c.target.get axis ≤ hi :=
    within _ (List.mem_cons_of_mem _ List.mem_cons_self)
  unfold positionAt
  split_ifs with front behind
  · exact start
  · exact target
  · have nonneg : 0 ≤ t := by norm_num at front; exact front.le
    have part : t ≤ 1 := by norm_num at behind; exact behind.le
    cases harc : c.arc with
    | none =>
      simp only [Position.lerp, Position.get_ofAxes]
      exact between_on_way start target nonneg part
    | some arc =>
      rw [Command.reached, harc] at within
      exact (measured arc harc).positionAt_between within nonneg part

/-! ### Findings on limits -/

namespace Builder

variable {α : Type} [Scalar α]

/-- Each command whose box does not fit is told by a finding of its own. -/
def TellsLimits (b : Builder α) : Prop :=
  ∀ c ∈ b.commands, b.setup.machine.travelLimits.any (!c.bounds.fitsWithin ·) = true →
    ⟨c.line, .outsideLimits c.target⟩ ∈ b.diagnostics

theorem tellsLimits_of_start {setup : Setup α} {b : Builder α} (h : start setup = .ok b) :
    b.TellsLimits := by
  obtain ⟨-, rfl⟩ := eq_of_start h
  exact fun c mem => absurd mem (Array.not_mem_empty c)

theorem Step.tellsLimits {b next : Builder α} (step : Step b next) (h : b.TellsLimits) :
    next.TellsLimits := by
  cases step with
  | count => exact h
  | pause => exact h
  | remember => exact h
  | note => exact fun c mem out => mem_note.mpr (.inl (h c mem out))
  | segment source after segment =>
    intro c mem out
    rcases Array.mem_push.mp mem with mem | rfl
    · exact mem_note.mpr (.inl (h c mem out))
    · refine mem_note.mpr (.inr ⟨_, List.mem_append_right _ ?_, rfl⟩)
      exact List.mem_ite_nil_right.mpr ⟨out, List.mem_singleton_self _⟩

end Builder

/-! ### Toolpaths -/

namespace Toolpath

/-- A command that is not told to leave the travel limits has its box within them. -/
theorem fitsWithin_of_silent {α : Type} [Scalar α] {setup : Setup α} {text : String}
    {path : Toolpath α} (built : Toolpath.build setup text = .ok path) {limits : Box α}
    (limited : setup.machine.travelLimits = some limits) {c : Command α}
    (mem : c ∈ path.commands)
    (silent : ⟨c.line, .outsideLimits c.target⟩ ∉ path.diagnostics) :
    c.bounds.fitsWithin limits = true := by
  obtain ⟨b, rfl, hfinish, tells⟩ :=
    holds_of_build built Builder.tellsLimits_of_start Builder.Step.tellsLimits
  obtain ⟨commands, diagnostics, -⟩ := Builder.toolpath_of_finish hfinish
  rw [commands] at mem
  rw [diagnostics] at silent
  have within := mt (tells c mem) silent
  rw [limited, Option.any_some] at within
  rwa [Bool.not_eq_true', Bool.not_eq_false] at within

variable {setup : Setup ℝ} {text : String} {path : Toolpath ℝ}

theorem measured_of_build (built : Toolpath.build setup text = .ok path) {c : Command ℝ}
    (mem : c ∈ path.commands) {arc : Arc ℝ} (harc : c.arc = some arc) : arc.Measured := by
  obtain ⟨i, hc⟩ := Array.mem_iff_getElem?.mp mem
  obtain ⟨stretch, -, carries⟩ := Stretch.exists_carried (carried built) hc
  rw [carries.arc] at harc
  obtain ⟨programmed, -, rfl⟩ := Option.map_eq_some_iff.mp harc
  exact Arc.measured_rebased _ _ _ _

/-- Boxes hold all of the way, not only its ends. -/
structure Covered (setup : Setup ℝ) (path : Toolpath ℝ) : Prop where
  command : ∀ c ∈ path.commands, ∀ t axis,
    c.bounds.min.get axis ≤ (c.positionAt t).get axis ∧
      (c.positionAt t).get axis ≤ c.bounds.max.get axis
  /-- Whatever playback shows lies in the box of the toolpath. -/
  pose : ∀ cursor : Cursor ℝ, cursor.toolpath = path → ∀ pose, cursor.pose? = some pose →
    ∀ axis, path.stats.boundingBox.min.get axis ≤ pose.position.get axis ∧
      pose.position.get axis ≤ path.stats.boundingBox.max.get axis
  /-- A command that is not told to leave the limits never does. -/
  limits : ∀ limits, setup.machine.travelLimits = some limits → ∀ c ∈ path.commands,
    ⟨c.line, .outsideLimits c.target⟩ ∉ path.diagnostics →
      ∀ t, limits.contains (c.positionAt t) = true

/-- **The boxes of a toolpath cover its whole way.** -/
theorem covered_of_build (built : Toolpath.build setup text = .ok path) :
    path.Covered setup := by
  have measured : ∀ c ∈ path.commands, ∀ arc, c.arc = some arc → arc.Measured :=
    fun c mem arc => measured_of_build built mem
  have own : ∀ c ∈ path.commands, ∀ axis, c.bounds.SpansOn axis (c.reached axis) :=
    fun c mem => spansOn_bounds built mem
  have command : ∀ c ∈ path.commands, ∀ t axis,
      c.bounds.min.get axis ≤ (c.positionAt t).get axis ∧
        (c.positionAt t).get axis ≤ c.bounds.max.get axis :=
    fun c mem t axis => Command.positionAt_between (measured c mem)
      (fun v reached => (own c mem axis).between v reached (Reals.defined v)) t
  constructor
  case command => exact command
  case pose =>
    rintro cursor rfl pose shown axis
    obtain ⟨c, found, rfl⟩ := Option.map_eq_some_iff.mp shown
    have mem : c ∈ cursor.toolpath.commands := Array.mem_of_getElem? found
    have total := (merged_of_build built).spansOn
      (fun c mem => own c (Array.mem_toList_iff.mp mem) axis)
    refine Command.positionAt_between (measured c mem) (fun v reached => ?_) _
    exact total.between v (List.mem_flatMap.mpr ⟨c, Array.mem_toList_iff.mpr mem, reached⟩)
      (Reals.defined v)
  case limits =>
    intro limits limited c mem silent t
    have fits := fitsWithin_of_silent built limited mem silent
    obtain ⟨low, high⟩ := Bool.and_eq_true_iff.mp fits
    rw [Box.contains_iff] at low high ⊢
    intro axis linear
    obtain ⟨above, below⟩ := command c mem t axis
    exact ⟨(low axis linear).1.trans above, below.trans (high axis linear).2⟩

/-- A circle whose start and end radius differ, since its line takes up a new offset. -/
theorem covered_circle :
    let offsets : Offsets ℝ := ⟨WorkOffsets.empty.insert "G54" ⟨100, 0, 0, 0, 0⟩, .empty⟩
    let setup : Setup ℝ := ⟨.ofRapidFeed 5000, offsets⟩
    ∃ path c arc, Toolpath.build setup circleText = .ok path
      ∧ path.commands[0]? = some c ∧ c.arc = some arc ∧ path.Covered setup := by
  intro offsets setup
  obtain ⟨path, c, arc, -, built, hc, harc, -⟩ := exists_circle offsets
  exact ⟨path, c, arc, built, hc, harc, covered_of_build built⟩

end Toolpath

end NumericalControl
