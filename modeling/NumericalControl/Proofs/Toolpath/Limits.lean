/-
  NumericalControl/Proofs/Toolpath/Limits.lean
  ============================================
  **Which moves are told to leave the travel limits.**  Along every run of a builder the
  findings on the limits and the commands whose box does not fit are in step: a line has
  such a finding exactly when it has such a command (`Builder.Told`).

  The box of a command is grown by `Scalar.min` and `Scalar.max`, which drop undefined
  coordinates.  So a command is told exactly when, on some linear axis, a defined
  coordinate that it reaches lies outside or no coordinate is defined at all
  (`Command.Leaves`).  An end with an undefined coordinate is no point of the limits, and
  yet it is passed over where another coordinate on the same axis is defined and inside.
-/
import NumericalControl.Proofs.Binary64.Order
import NumericalControl.Proofs.Box
import NumericalControl.Proofs.Toolpath.Run

namespace NumericalControl

open Scalar

variable {α : Type} [Scalar α]

/-- A finding on the travel limits stands on the line. -/
def LimitFound (diagnostics : Array (Diagnostic α)) (line : Nat) : Prop :=
  ∃ d ∈ diagnostics, d.line = line ∧ d.finding.kind = .limit

namespace Command

/-- On some linear axis the command reaches a defined coordinate outside the limits, or
    none that is defined. -/
def Leaves (limits : Box α) (c : Command α) : Prop :=
  ∃ axis ∈ Axis.linear,
    (∀ v ∈ reachedOn c.start c.target c.arc axis, IsNaN v) ∨
      ∃ v ∈ reachedOn c.start c.target c.arc axis, ¬IsNaN v ∧
        ¬(limits.min.get axis ≤ v ∧ v ≤ limits.max.get axis)

/-- One of the ends is no point of the limits. -/
def EndsOutside (limits : Box α) (c : Command α) : Prop :=
  limits.contains c.start = false ∨ limits.contains c.target = false

/-- One of the ends has an undefined coordinate on a linear axis. -/
def EndsUndefined (c : Command α) : Prop :=
  ∃ axis ∈ Axis.linear, IsNaN (c.start.get axis) ∨ IsNaN (c.target.get axis)

theorem leaves_iff [OrderedScalar α] {limits : Box α} {c : Command α}
    (h : c.bounds = moveBounds c.start c.target c.arc) :
    c.Leaves limits ↔ c.bounds.fitsWithin limits = false := by
  rw [← Bool.not_eq_true, h, Box.fitsWithin_iff (spansOn_moveBounds c.start c.target c.arc)]
  constructor
  · rintro ⟨axis, linear, undefined | ⟨v, mem, defined, out⟩⟩ fits
    · obtain ⟨⟨v, mem, defined⟩, -⟩ := fits axis linear
      exact defined (undefined v mem)
    · exact out ((fits axis linear).2 v mem defined)
  · intro unfit
    by_contra stays
    refine unfit fun axis linear => ⟨?_, fun v mem defined => ?_⟩
    · by_contra none
      refine stays ⟨axis, linear, .inl fun v mem => ?_⟩
      exact by_contra fun defined => none ⟨v, mem, defined⟩
    · by_contra out
      exact stays ⟨axis, linear, .inr ⟨v, mem, defined, out⟩⟩

/-- **A command with an end outside leaves the limits, unless an end is undefined.** -/
theorem EndsOutside.leaves_or {limits : Box α} {c : Command α} (h : c.EndsOutside limits) :
    c.Leaves limits ∨ c.EndsUndefined := by
  have outside : ∀ p : Position α, limits.contains p = false → ∃ axis ∈ Axis.linear,
      ¬(limits.min.get axis ≤ p.get axis ∧ p.get axis ≤ limits.max.get axis) := by
    intro p hp
    rw [← Bool.not_eq_true, Box.contains_iff] at hp
    simpa only [not_forall, exists_prop] using hp
  rcases h with h | h
  · obtain ⟨axis, linear, out⟩ := outside c.start h
    by_cases undefined : IsNaN (c.start.get axis)
    · exact .inr ⟨axis, linear, .inl undefined⟩
    · exact .inl ⟨axis, linear, .inr ⟨_, List.mem_cons_self, undefined, out⟩⟩
  · obtain ⟨axis, linear, out⟩ := outside c.target h
    by_cases undefined : IsNaN (c.target.get axis)
    · exact .inr ⟨axis, linear, .inr undefined⟩
    · exact .inl ⟨axis, linear, .inr
        ⟨_, List.mem_cons_of_mem _ List.mem_cons_self, undefined, out⟩⟩

end Command

namespace Builder

/-! ### Findings on limits along a run -/

/-- The findings on the limits are in step with the commands. -/
structure Told (b : Builder α) : Prop where
  bounds : ∀ c ∈ b.commands, c.bounds = moveBounds c.start c.target c.arc
  found : ∀ line, LimitFound b.diagnostics line ↔ ∃ c ∈ b.commands,
    c.line = line ∧ b.setup.machine.travelLimits.any (!c.bounds.fitsWithin ·) = true

theorem told_of_start {setup : Setup α} {b : Builder α} (h : start setup = .ok b) : b.Told := by
  obtain ⟨-, rfl⟩ := eq_of_start h
  constructor
  · intro c mem
    exact absurd mem (Array.not_mem_empty c)
  · intro line
    constructor
    · rintro ⟨d, mem, -⟩
      exact absurd mem (Array.not_mem_empty d)
    · rintro ⟨c, mem, -⟩
      exact absurd mem (Array.not_mem_empty c)

omit [Scalar α] in
theorem limitFound_note (b : Builder α) (findings : List (Finding α)) (line : Nat) :
    LimitFound (b.note findings).diagnostics line ↔
      LimitFound b.diagnostics line ∨
        (b.line = line ∧ ∃ finding ∈ findings, finding.kind = .limit) := by
  unfold LimitFound
  simp only [mem_note]
  constructor
  · rintro ⟨d, mem | ⟨finding, mem, rfl⟩, hline, hkind⟩
    · exact .inl ⟨d, mem, hline, hkind⟩
    · exact .inr ⟨hline, finding, mem, hkind⟩
  · rintro (⟨d, mem, hline, hkind⟩ | ⟨hline, finding, mem, hkind⟩)
    · exact ⟨d, .inl mem, hline, hkind⟩
    · exact ⟨⟨b.line, finding⟩, .inr ⟨finding, mem, rfl⟩, hline, hkind⟩

theorem limit_commandFindings {machine : Parameters α} {c : Command α} :
    (∃ finding ∈ commandFindings machine c, finding.kind = .limit) ↔
      machine.travelLimits.any (!c.bounds.fitsWithin ·) = true := by
  unfold commandFindings
  constructor
  · rintro ⟨finding, mem, hkind⟩
    rcases List.mem_append.mp mem with mem | mem
    · exact absurd ((Finding.kind_of_mem_ite mem).symm.trans hkind) Kind.noConfusion
    · exact (List.mem_ite_nil_right.mp mem).1
  · intro out
    refine ⟨.outsideLimits c.target, List.mem_append_right _ ?_, rfl⟩
    rw [if_pos out]
    exact List.mem_singleton_self _

theorem Told.addSegment {b : Builder α} (h : b.Told) (source : String) (after : State α)
    (segment : Segment α) : (b.addSegment source after segment).Told := by
  constructor
  case bounds =>
    intro c mem
    rcases Array.mem_push.mp mem with mem | rfl
    · exact h.bounds c mem
    · rfl
  case found =>
    intro line
    have found := limitFound_note b
      (commandFindings b.setup.machine (b.commandOf source after segment)) line
    rw [h.found, limit_commandFindings] at found
    refine found.trans ?_
    constructor
    · rintro (⟨c, mem, told⟩ | told)
      · exact ⟨c, Array.mem_push.mpr (.inl mem), told⟩
      · exact ⟨b.commandOf source after segment, Array.mem_push.mpr (.inr rfl), told⟩
    · rintro ⟨c, mem, told⟩
      rcases Array.mem_push.mp mem with mem | rfl
      · exact .inl ⟨c, mem, told⟩
      · exact .inr told

/-- **Every small step keeps the findings on the limits in step with the commands.** -/
theorem Step.told {b next : Builder α} (step : Step b next) (h : b.Told) : next.Told := by
  cases step with
  | count => exact ⟨h.bounds, h.found⟩
  | pause => exact ⟨h.bounds, h.found⟩
  | remember => exact ⟨h.bounds, h.found⟩
  | segment source after segment => exact h.addSegment source after segment
  | note within =>
    refine ⟨h.bounds, ?_⟩
    intro line
    rw [limitFound_note, h.found]
    refine or_iff_left ?_
    rintro ⟨-, finding, mem, hkind⟩
    exact within finding mem hkind

end Builder

/-! ### Toolpaths -/

/-- The findings and the commands of a toolpath come from one builder, where they are in
    step. -/
theorem Toolpath.told_of_build {setup : Setup α} {text : String} {path : Toolpath α}
    (built : Toolpath.build setup text = .ok path) :
    ∃ b : Builder α, b.setup = setup ∧ b.commands = path.commands
      ∧ b.diagnostics = path.diagnostics ∧ b.Told := by
  obtain ⟨b, setup_eq, hfinish, told⟩ :=
    holds_of_build built Builder.told_of_start Builder.Step.told
  obtain ⟨commands, diagnostics, -⟩ := Builder.toolpath_of_finish hfinish
  exact ⟨b, setup_eq, commands.symm, diagnostics.symm, told⟩

/-- **A line is found to leave the travel limits exactly when a command of it does.**  Of
    the commands with an end outside, only those with an undefined end may be missed. -/
theorem Toolpath.limit_found_iff {setup : Setup Float} {text : String} {path : Toolpath Float}
    {limits : Box Float} (limited : setup.machine.travelLimits = some limits)
    (built : Toolpath.build setup text = .ok path) :
    (∀ line, LimitFound path.diagnostics line ↔
        ∃ c ∈ path.commands, c.line = line ∧ c.Leaves limits)
      ∧ ∀ c ∈ path.commands, c.EndsOutside limits →
          LimitFound path.diagnostics c.line ∨ c.EndsUndefined := by
  obtain ⟨b, rfl, hcommands, hdiagnostics, told⟩ := Toolpath.told_of_build built
  rw [← hcommands, ← hdiagnostics]
  have found : ∀ line, LimitFound b.diagnostics line ↔
      ∃ c ∈ b.commands, c.line = line ∧ c.Leaves limits := by
    intro line
    rw [told.found, limited]
    constructor
    · rintro ⟨c, mem, hline, out⟩
      rw [Option.any_some, Bool.not_eq_true'] at out
      exact ⟨c, mem, hline, (Command.leaves_iff (told.bounds c mem)).mpr out⟩
    · rintro ⟨c, mem, hline, leaves⟩
      have out := (Command.leaves_iff (told.bounds c mem)).mp leaves
      exact ⟨c, mem, hline, by rw [Option.any_some, out]; rfl⟩
  refine ⟨found, ?_⟩
  intro c mem outside
  rcases outside.leaves_or with leaves | undefined
  · exact .inl ((found c.line).mpr ⟨c, mem, rfl, leaves⟩)
  · exact .inr undefined

theorem Toolpath.limit_found_overtravel :
    let limits : Box Float := ⟨⟨-10.0, -10.0, -10.0, 0.0, 0.0⟩, ⟨10.0, 10.0, 10.0, 0.0, 0.0⟩⟩
    let setup : Setup Float :=
      ⟨{ Parameters.ofRapidFeed 5000.0 with travelLimits := some limits }, .empty⟩
    setup.machine.travelLimits = some limits ∧
      ∃ path, Toolpath.build setup "G1 X20 F100" = .ok path ∧ LimitFound path.diagnostics 1 := by
  intro limits setup
  have run : (Toolpath.build setup "G1 X20 F100").toOption.any (fun path =>
      path.commands.any fun c => decide (c.line = 1 ∧ c.target.x = 20.0)) = true := by
    decide +kernel
  obtain ⟨path, built, moves⟩ := Toolpath.exists_of_any run
  obtain ⟨i, hi, moves⟩ := Array.any_eq_true.mp moves
  obtain ⟨hline, hx⟩ := of_decide_eq_true moves
  have reached : (20.0 : Float) ∈ reachedOn path.commands[i].start path.commands[i].target
      path.commands[i].arc .x := by
    rw [← hx]
    exact List.mem_cons_of_mem _ List.mem_cons_self
  have leaves : path.commands[i].Leaves limits :=
    ⟨.x, List.mem_cons_self, .inr ⟨20.0, reached, by decide +kernel, by decide +kernel⟩⟩
  refine ⟨rfl, path, built, ?_⟩
  exact ((Toolpath.limit_found_iff rfl built).1 1).mpr
    ⟨path.commands[i], Array.getElem_mem hi, hline, leaves⟩

/-- **An undefined end is passed over.**  The second line ends at no point at all, and no
    finding says so. -/
theorem Toolpath.undefined_end_not_found :
    let limits : Box Float := ⟨⟨-10.0, -10.0, -10.0, 0.0, 0.0⟩, ⟨10.0, 10.0, 10.0, 0.0, 0.0⟩⟩
    let setup : Setup Float := {
      machine := { Parameters.ofRapidFeed 5000.0 with travelLimits := some limits }
      offsets := ⟨WorkOffsets.empty.insert "G55" ⟨Binary64.nan, 0.0, 0.0, 0.0, 0.0⟩, .empty⟩ }
    setup.machine.check = .ok () ∧
      ∃ path, Toolpath.build setup "G1 X1 F100\nG55 X2" = .ok path ∧
        ∃ c ∈ path.commands, c.EndsOutside limits ∧ ¬LimitFound path.diagnostics c.line := by
  intro limits setup
  have run : (Toolpath.build setup "G1 X1 F100\nG55 X2").toOption.any (fun path =>
      (path.commands.any fun c => !limits.contains c.target) && path.diagnostics.isEmpty) =
        true := by
    decide +kernel
  obtain ⟨path, built, run⟩ := Toolpath.exists_of_any run
  obtain ⟨outside, silent⟩ := Bool.and_eq_true_iff.mp run
  obtain ⟨i, hi, outside⟩ := Array.any_eq_true.mp outside
  rw [Bool.not_eq_true'] at outside
  refine ⟨by decide +kernel, path, built, path.commands[i], Array.getElem_mem hi,
    .inr outside, ?_⟩
  rintro ⟨d, mem, -⟩
  rw [Array.isEmpty_iff.mp silent] at mem
  exact Array.not_mem_empty d mem

end NumericalControl
