/-
  NumericalControl/Proofs/Modal/Line.lean
  =======================================
  **Where a line starts and where it ends.**  Every word of a line may change the memory,
  but the position is changed in one place only: where the line moves.  So the request of
  a line starts at the position before the line, its target is the position after it, and
  a line without a motion stays where it is (`Outcome.Moves`, `moves_apply`).  A pause is
  the value of a P word that is not negative (`dwell_apply_nonneg`).

  A level of the drill cycle is latched only while the motion mode is the drill cycle
  (`State.Settled`).  Every line leaves the memory settled, and a line without words
  changes nothing in a settled memory (`apply_nil`), so that such lines may be passed over.
-/
import NumericalControl.Modal.Request

namespace NumericalControl

variable {α : Type}

/-! ### The first two readings leave the position alone -/

@[simp] theorem Setting.position_apply (s : State α) (setting : Setting) :
    (setting.apply s).position = s.position := by
  cases setting <;> rfl

@[simp] theorem Role.position_apply (s : State α) (role : Role) :
    (role.apply s).position = s.position := by
  cases role with
  | sets setting => exact Setting.position_apply s setting
  | _ => rfl

variable [Scalar α]

omit [Scalar α] in
@[simp] theorem State.position_endSeries (s : State α) : s.endSeries.position = s.position := by
  unfold State.endSeries
  split <;> rfl

@[simp] theorem State.position_applyModes (s : State α) (words : List (Word α)) :
    (s.applyModes words).position = s.position := by
  unfold State.applyModes
  rw [State.position_endSeries]
  induction words generalizing s with
  | nil => rfl
  | cons w rest ih => rw [List.foldl_cons, ih, Role.position_apply]

theorem State.applyRegister_keeps (scale : α) (s : State α) (w : Word α) :
    (s.applyRegister scale w).position = s.position
      ∧ (s.applyRegister scale w).motion = s.motion
      ∧ (s.applyRegister scale w).drill = s.drill := by
  unfold State.applyRegister
  repeat' split
  all_goals exact ⟨rfl, rfl, rfl⟩

theorem State.foldl_applyRegister_keeps (scale : α) (words : List (Word α)) (s : State α) :
    (words.foldl (State.applyRegister scale) s).position = s.position
      ∧ (words.foldl (State.applyRegister scale) s).motion = s.motion
      ∧ (words.foldl (State.applyRegister scale) s).drill = s.drill := by
  induction words generalizing s with
  | nil => exact ⟨rfl, rfl, rfl⟩
  | cons w rest ih =>
    obtain ⟨position, motion, drill⟩ := ih (s.applyRegister scale w)
    obtain ⟨position', motion', drill'⟩ := State.applyRegister_keeps scale s w
    exact ⟨position.trans position', motion.trans motion', drill.trans drill'⟩

/-! ### The third reading moves -/

/-- The memory with the modes and registers of a line in force, before it moves. -/
def State.read (old : State α) (words : List (Word α)) : State α :=
  words.foldl (State.applyRegister (old.applyModes words).units.scale) (old.applyModes words)

/-- The request of a line before it moves. -/
def State.asked (old : State α) (words : List (Word α)) : Request α :=
  ⟨none, old.position, old.position, .ofWords (old.applyModes words).units.scale words, none,
    if asksForDwell words then dwellTime? words else none⟩

/-- What the third reading makes of a line. -/
def State.moved (old : State α) (words : List (Word α)) : Outcome α :=
  (old.read words).motionLine (old.asked words)
    (.ofWords (old.applyModes words).units.scale words) words

/-- A line is read for its motion only through whether it is passed through and whether it
    names its motion mode. -/
theorem State.motionLine_congr {words other : List (Word α)}
    (passthrough : isPassthrough words = isPassthrough other)
    (motion : namesMotion words = namesMotion other) (s : State α) (request : Request α)
    (axes : AxisWords α) :
    s.motionLine request axes words = s.motionLine request axes other := by
  simp only [State.motionLine, passthrough, motion]

theorem State.apply_eq_moved (old : State α) (words : List (Word α)) :
    (old.apply words).state = (old.moved words).state ∧
      (old.apply words).request = (old.moved words).request := ⟨rfl, rfl⟩

theorem State.position_read (old : State α) (words : List (Word α)) :
    (old.read words).position = old.position := by
  rw [State.read, (State.foldl_applyRegister_keeps _ words _).1, State.position_applyModes]

/-- What an outcome says about the way from a position: its request starts there, leads to
    the position in memory, and stays where it is unless it asks for a motion; a drilling
    request has its hole. -/
structure Outcome.Moves (start : Position α) (outcome : Outcome α) : Prop where
  start_eq : outcome.request.start = start
  target_eq : outcome.request.target = outcome.state.position
  idle : outcome.request.motion = none → outcome.state.position = start
  hole : outcome.request.motion = some .drill → outcome.request.hole.isSome

section

variable {s : State α} {request : Request α}

theorem State.moves_drillLine (axes : AxisWords α) (callsCycle : Bool)
    (hstart : request.start = s.position) (htarget : request.target = s.position)
    (hidle : request.motion = none) :
    (s.drillLine request axes callsCycle).Moves s.position := by
  unfold State.drillLine
  dsimp only
  split
  · split
    · exact ⟨hstart, htarget, fun _ => rfl, fun h => by simp [hidle] at h⟩
    · exact ⟨hstart, rfl, fun h => by simp at h, fun _ => rfl⟩
  · exact ⟨hstart, htarget, fun _ => rfl, fun h => by simp [hidle] at h⟩

theorem State.moves_motionLine (request : Request α) (axes : AxisWords α) (words : List (Word α))
    (hstart : request.start = s.position) (htarget : request.target = s.position)
    (hidle : request.motion = none) :
    (s.motionLine request axes words).Moves s.position := by
  have stays : ∀ findings, Outcome.Moves s.position ⟨s, request, findings⟩ :=
    fun _ => ⟨hstart, htarget, fun _ => rfl, fun h => by simp [hidle] at h⟩
  unfold State.motionLine
  split
  · exact stays _
  · split
    · exact stays _
    · exact State.moves_drillLine axes _ hstart htarget hidle
    · rename_i motion notDrill _
      split
      · refine ⟨hstart, rfl, fun h => by simp at h, fun h => ?_⟩
        exact absurd (Option.some.inj h) notDrill
      · exact stays _

end

/-- **A line moves from the position before it to the position after it.** -/
theorem State.moves_apply (old : State α) (words : List (Word α)) :
    (old.apply words).Moves old.position := by
  have position := State.position_read old words
  have moves := State.moves_motionLine (old.asked words)
    (.ofWords (old.applyModes words).units.scale words) words position.symm position.symm rfl
  rw [position] at moves
  exact ⟨moves.start_eq, moves.target_eq, moves.idle, moves.hole⟩

/-! ### The pause -/

theorem State.dwell_drillLine (s : State α) (request : Request α) (axes : AxisWords α)
    (callsCycle : Bool) :
    (s.drillLine request axes callsCycle).request.dwell = request.dwell := by
  unfold State.drillLine
  dsimp only
  repeat' split
  all_goals rfl

theorem State.dwell_motionLine (s : State α) (request : Request α) (axes : AxisWords α)
    (words : List (Word α)) :
    (s.motionLine request axes words).request.dwell = request.dwell := by
  unfold State.motionLine
  split
  · rfl
  · split
    · rfl
    · exact State.dwell_drillLine _ _ _ _
    · split <;> rfl

theorem State.dwell_apply (old : State α) (words : List (Word α)) :
    (old.apply words).request.dwell =
      if asksForDwell words then dwellTime? words else none := by
  unfold State.apply
  exact State.dwell_motionLine _ _ _ _

theorem dwellTime?_nonneg {words : List (Word α)} {seconds : α}
    (h : dwellTime? words = some seconds) : (0.0 : α) ≤ seconds := by
  unfold dwellTime? Word.last? at h
  obtain ⟨w, hw, rfl⟩ := Option.map_eq_some_iff.mp h
  have mem := List.mem_of_getLast? hw
  simp only [List.mem_filter, decide_eq_true_eq] at mem
  exact mem.1.2

/-- **A pause is never negative.** -/
theorem State.dwell_apply_nonneg {old : State α} {words : List (Word α)} {seconds : α}
    (h : (old.apply words).request.dwell = some seconds) : (0.0 : α) ≤ seconds := by
  rw [State.dwell_apply] at h
  split at h
  · exact dwellTime?_nonneg h
  · cases h

/-! ### The latched level -/

/-- A level is latched only while the drill cycle is the motion mode. -/
def State.Settled (s : State α) : Prop := s.motion = some .drill ∨ s.drill.initialLevel = none

theorem State.settled_initial : (State.initial : State α).Settled := .inr rfl

omit [Scalar α] in
theorem State.settled_endSeries (s : State α) : s.endSeries.Settled := by
  unfold State.endSeries
  split
  · exact .inl ‹_›
  · exact .inr rfl

omit [Scalar α] in
theorem State.endSeries_of_settled {s : State α} (h : s.Settled) : s.endSeries = s := by
  unfold State.endSeries
  split
  · rfl
  · rename_i outside
    have unlatched : s.drill.initialLevel = none := h.resolve_left outside
    rw [← unlatched]

theorem State.settled_motionLine {s : State α} (h : s.Settled) (request : Request α)
    (axes : AxisWords α) (words : List (Word α)) :
    (s.motionLine request axes words).state.Settled := by
  unfold State.motionLine
  split
  · exact h
  · split
    · exact h
    · rename_i drilling
      -- the drill cycle keeps its own motion mode, whatever it latches
      unfold State.drillLine
      dsimp only
      split
      · split
        · exact .inl drilling
        · exact .inl drilling
      · exact .inl drilling
    · split
      · exact h
      · exact h

/-- **Every line leaves the memory settled.** -/
theorem State.settled_apply (old : State α) (words : List (Word α)) :
    (old.apply words).state.Settled := by
  refine State.settled_motionLine ?_ _ _ words
  obtain ⟨-, motion, drill⟩ := State.foldl_applyRegister_keeps
    (old.applyModes words).units.scale words (old.applyModes words)
  have moded : (old.applyModes words).Settled := State.settled_endSeries _
  unfold State.Settled
  rw [motion, drill]
  exact moded

def Request.idle (position : Position α) : Request α :=
  ⟨none, position, position, .empty, none, none⟩

/-- **A line without words changes nothing in a settled memory.** -/
theorem State.apply_nil {s : State α} (h : s.Settled) :
    s.apply [] = ⟨s, .idle s.position, []⟩ := by
  have modes : s.applyModes [] = s := State.endSeries_of_settled h
  unfold State.apply
  simp only [modes, List.foldl_nil]
  unfold State.motionLine
  simp only [isPassthrough, List.any_nil, Bool.false_eq_true, if_false]
  split
  · rfl
  · rfl
  · simp only [AxisWords.isAny, AxisWords.ofWords_eq, Word.last?, ArcWords.isEmpty,
      ArcWords.ofWords]
    simp [modeFindings, asksForDwell, Request.idle, ArcWords.empty]

end NumericalControl
