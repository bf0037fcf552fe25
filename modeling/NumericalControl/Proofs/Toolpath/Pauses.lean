/-
  NumericalControl/Proofs/Toolpath/Pauses.lean
  ============================================
  **The pauses that close a program.**  The clock of a builder moves with the commands and
  with the pauses.  A line that moves leaves it at the end of its last command, since that
  command starts when the clock stands and ends when it has moved on.  A line that does not
  move adds its pause and no command.  So the clock stands at the end of the last command,
  moved on by the pauses of the lines behind the last one that moves (`closingPauses`,
  `Builder.clock_foldl_takeLine`).

  Those pauses are part of the estimated time of a toolpath and of none of its commands
  (`Toolpath.estimatedTime_eq`).
-/
import Mathlib.Data.List.DropRight
import NumericalControl.Proofs.Modal.Program
import NumericalControl.Proofs.Toolpath.Success

namespace NumericalControl

variable {α : Type} [Scalar α]

/-- The outcome of a line that does not move. -/
def Outcome.isIdle (outcome : Outcome α) : Bool := outcome.request.motion.isNone

/-- The pauses of the lines behind the last one that moves, in their order. -/
def closingPauses (lines : List String) : List α :=
  (((State.initial : State α).outcomes lines).rtakeWhile Outcome.isIdle).filterMap
    (·.request.dwell)

/-! ### Reading one more line -/

theorem State.outcomes_concat (earlier : List String) (text : String) :
    (State.initial : State α).outcomes (earlier ++ [text]) = State.initial.outcomes earlier ++
      [(State.afterLines earlier).apply (Line.read text).words] := by
  suffices h : ∀ s : State α, s.outcomes (earlier ++ [text]) = s.outcomes earlier ++
      [(earlier.foldl (fun s text => (s.apply (Line.read text).words).state) s).apply
        (Line.read text).words] from h .initial
  induction earlier with
  | nil => exact fun _ => rfl
  | cons first rest ih =>
    intro s
    simp only [List.cons_append, State.outcomes, ih, List.foldl_cons]

/-- A line that moves forgets the pauses before it, a line that does not adds its own. -/
theorem closingPauses_concat (earlier : List String) (text : String) :
    closingPauses (α := α) (earlier ++ [text]) =
      let outcome := (State.afterLines earlier : State α).apply (Line.read text).words
      if outcome.isIdle then closingPauses earlier ++ outcome.request.dwell.toList else [] := by
  simp only [closingPauses, State.outcomes_concat, List.rtakeWhile_concat]
  split
  · rw [List.filterMap_append]
    rfl
  · rfl

/-- A line that moves has a segment. -/
theorem Segment.ofRequest_ne_nil {outcome : Outcome α} {p : Position α}
    (moves : outcome.Moves p) (h : outcome.isIdle = false) (plane : Plane)
    (machine : Parameters α) : (ofRequest outcome.request plane machine).1 ≠ [] := by
  unfold ofRequest
  split
  · rename_i idle
    simp [Outcome.isIdle, idle] at h
  · exact List.cons_ne_nil _ _
  · exact List.cons_ne_nil _ _
  · exact List.cons_ne_nil _ _
  · rename_i drilling
    obtain ⟨hole, hole_eq⟩ := Option.isSome_iff_exists.mp (moves.hole drilling)
    rw [hole_eq]
    exact List.cons_ne_nil _ _

namespace Builder

/-! ### The clock -/

/-- When the last command ends. -/
def lastEnd (b : Builder α) : α := (b.commands.back?.map Command.endTime).getD 0.0

/-- A command starts when the clock stands, and the clock moves on to its end. -/
theorem clock_addSegment (source : String) (after : State α) (b : Builder α)
    (segment : Segment α) :
    (b.addSegment source after segment).totals.clock =
      (b.addSegment source after segment).lastEnd := by
  have pushed : (b.addSegment source after segment).commands.back? =
      some (b.commandOf source after segment) := Array.back?_push
  rw [lastEnd, pushed]
  rfl

theorem clock_foldl_addSegment (source : String) (after : State α) {segments : List (Segment α)}
    (h : segments ≠ []) (b : Builder α) :
    (segments.foldl (addSegment source after) b).totals.clock =
      (segments.foldl (addSegment source after) b).lastEnd := by
  obtain ⟨front, last, rfl⟩ := (List.eq_nil_or_concat' segments).resolve_left h
  rw [List.foldl_append]
  exact clock_addSegment source after _ last

theorem clock_addDwell (totals : Totals α) (dwell : Option α) :
    (totals.addDwell dwell).clock = dwell.toList.foldl (· + ·) totals.clock := by
  cases dwell <;> rfl

theorem clock_addWords_of_moves (b : Builder α) (source : String) {words : List (Word α)}
    (h : (b.state.apply words).isIdle = false) :
    (b.addWords source words).totals.clock = (b.addWords source words).lastEnd := by
  let outcome := b.state.apply words
  let cut := Segment.ofRequest outcome.request outcome.state.plane b.setup.machine
  let noted := b.note (outcome.findings ++ b.setup.offsets.findings b.state outcome.state ++ cut.2)
  let paused : Builder α := { noted with totals := noted.totals.addDwell outcome.request.dwell }
  have segments : cut.1 ≠ [] := Segment.ofRequest_ne_nil (State.moves_apply _ _) h _ _
  exact clock_foldl_addSegment source outcome.state segments paused

theorem clock_addWords_of_idle (b : Builder α) (source : String) {words : List (Word α)}
    (h : (b.state.apply words).isIdle = true) :
    (b.addWords source words).lastEnd = b.lastEnd ∧ (b.addWords source words).totals.clock =
      (b.state.apply words).request.dwell.toList.foldl (· + ·) b.totals.clock := by
  have idle : (b.state.apply words).request.motion = none := Option.isNone_iff_eq_none.mp h
  have still : Segment.ofRequest (b.state.apply words).request (b.state.apply words).state.plane
      b.setup.machine = ([], []) := by
    simp only [Segment.ofRequest, idle]
  simp only [addWords, still, List.foldl_nil]
  exact ⟨rfl, clock_addDwell b.totals _⟩

/-- **A line that moves leaves the clock at the end of its last command.** -/
theorem clock_takeLine_of_moves {b : Builder α} (settled : b.state.Settled) {text : String}
    (h : (b.state.apply (Line.read text).words).isIdle = false) :
    (b.takeLine text).totals.clock = (b.takeLine text).lastEnd := by
  simp only [takeLine]
  split
  · rename_i empty
    rw [List.isEmpty_iff.mp empty, State.apply_nil settled] at h
    cases h
  · exact clock_addWords_of_moves _ _ h

/-- **A line that does not move adds its pause**, and no command. -/
theorem clock_takeLine_of_idle {b : Builder α} (settled : b.state.Settled) {text : String}
    (h : (b.state.apply (Line.read text).words).isIdle = true) :
    (b.takeLine text).lastEnd = b.lastEnd ∧ (b.takeLine text).totals.clock =
      (b.state.apply (Line.read text).words).request.dwell.toList.foldl (· + ·)
        b.totals.clock := by
  simp only [takeLine]
  split
  · rename_i empty
    rw [List.isEmpty_iff.mp empty, State.apply_nil settled]
    exact ⟨rfl, rfl⟩
  · exact clock_addWords_of_idle _ _ h

/-- **The clock stands at the end of the last command, moved on by the closing pauses.** -/
theorem clock_foldl_takeLine {setup : Setup α} {b : Builder α} (hstart : start setup = .ok b)
    (lines : List String) :
    (lines.foldl takeLine b).totals.clock =
      (closingPauses lines).foldl (· + ·) (lines.foldl takeLine b).lastEnd := by
  induction lines using List.reverseRecOn with
  | nil =>
    obtain ⟨-, rfl⟩ := eq_of_start hstart
    rfl
  | append_singleton earlier text ih =>
    have state := state_foldl_takeLine hstart earlier
    have settled := settled_foldl_takeLine hstart earlier
    rw [List.foldl_append]
    change ((earlier.foldl takeLine b).takeLine text).totals.clock =
      List.foldl _ ((earlier.foldl takeLine b).takeLine text).lastEnd _
    generalize earlier.foldl takeLine b = last at ih state settled ⊢
    cases h : (last.state.apply (Line.read text).words).isIdle with
    | false =>
      rw [closingPauses_concat, ← state, if_neg (Bool.not_eq_true _ ▸ h), List.foldl_nil]
      exact clock_takeLine_of_moves settled h
    | true =>
      obtain ⟨lastEnd, clock⟩ := clock_takeLine_of_idle settled h
      rw [closingPauses_concat, ← state, if_pos h, List.foldl_append, clock, lastEnd, ih]

end Builder

/-- **The estimated time of a toolpath is the end of its last command, and the pauses that
    close the program.** -/
theorem Toolpath.estimatedTime_eq {setup : Setup α} {text : String} {path : Toolpath α}
    (built : Toolpath.build setup text = .ok path) :
    ∃ c, path.commands.back? = some c ∧ path.stats.estimatedTime =
      (closingPauses (programLines text)).foldl (· + ·) c.endTime := by
  obtain ⟨b, hstart, hfinish⟩ := Toolpath.run_of_build built
  obtain ⟨commands, -, time⟩ := Builder.toolpath_of_finish hfinish
  have clock := Builder.clock_foldl_takeLine hstart (programLines text)
  obtain ⟨c, hc⟩ : ∃ c, path.commands.back? = some c :=
    Option.isSome_iff_exists.mp (Array.back?_isSome.mpr (Toolpath.commands_ne_empty built))
  refine ⟨c, hc, ?_⟩
  rw [time, clock, Builder.lastEnd, ← commands, hc]
  rfl

end NumericalControl
