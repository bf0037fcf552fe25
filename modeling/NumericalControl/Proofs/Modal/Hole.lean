/-
  NumericalControl/Proofs/Modal/Hole.lean
  =======================================
  **What one line does to a series of holes.**  A line either drills one hole or none.
  A hole takes the level of the running series, or else begins a series at the level
  where the tool stands, along the tool axis of its own line; it leaves that level
  latched and the tool at its retract level (`Outcome.Drills`).  A line without a hole
  keeps the level as long as the motion mode stays the drill cycle, and ends the series
  otherwise (`Outcome.Carries`).

  The first two readings of a line can end a series but never begin or move one
  (`State.initialLevel_applyModes`); everything else happens in the third
  (`State.carries_motionLine`).
-/
import NumericalControl.Proofs.Modal.Line

namespace NumericalControl

variable {α : Type}

/-! ### The levels of a hole -/

section

variable [Scalar α] {registers : DrillRegisters α} {mode : DistanceMode} {level : α}
  {hole : Hole α}

/-- The R plane and the depth that two words give in a series that began at a level. -/
def Hole.levels (mode : DistanceMode) (initialLevel r d : α) : α × α :=
  match mode with
  | .absolute => (r, d)
  | .incremental => (initialLevel + r, initialLevel + r + d)

/-- The level to which the tool goes back. -/
def Hole.retractLevel (mode : RetractMode) (initialLevel rPlane : α) : α :=
  match mode with
  | .initialLevel => Scalar.max initialLevel rPlane
  | .rPlane => rPlane

theorem Hole.ofRegisters?_eq_some (h : ofRegisters? registers mode level = some hole) :
    ∃ r d, registers.rPlane = some r ∧ registers.depth = some d
      ∧ hole.initialLevel = registers.initialLevel.getD level
      ∧ (hole.rPlane, hole.depth) = levels mode hole.initialLevel r d
      ∧ hole.retract = retractLevel registers.retract hole.initialLevel hole.rPlane := by
  simp only [ofRegisters?] at h
  split at h
  · rename_i r d hr hd
    obtain rfl := Option.some.inj h
    exact ⟨r, d, hr, hd, rfl, rfl, rfl⟩
  · cases h

end

/-! ### The first two readings -/

@[simp] theorem Setting.initialLevel_apply (s : State α) (setting : Setting) :
    (setting.apply s).drill.initialLevel = s.drill.initialLevel := by
  cases setting <;> rfl

@[simp] theorem Role.initialLevel_apply (s : State α) (role : Role) :
    (role.apply s).drill.initialLevel = s.drill.initialLevel := by
  cases role with
  | sets setting => exact Setting.initialLevel_apply s setting
  | _ => rfl

theorem State.initialLevel_endSeries (s : State α) :
    s.endSeries.drill.initialLevel =
      if s.endSeries.motion = some .drill then s.drill.initialLevel else none := by
  by_cases drilling : s.motion = some .drill
  · simp [State.endSeries, drilling]
  · simp [State.endSeries, drilling]

variable [Scalar α]

theorem State.initialLevel_applyModes (old : State α) (words : List (Word α)) :
    (old.applyModes words).drill.initialLevel =
      if (old.applyModes words).motion = some .drill then old.drill.initialLevel else none := by
  have kept : (words.foldl (fun s w => (Role.of w).apply s) old).drill.initialLevel =
      old.drill.initialLevel := by
    induction words generalizing old with
    | nil => rfl
    | cons w rest ih => rw [List.foldl_cons, ih, Role.initialLevel_apply]
  unfold State.applyModes
  rw [State.initialLevel_endSeries, kept]

/-! ### The third reading -/

/-- The outcome drills the hole, when the tool stood at `start` before it and `latched` is
    the level of the running series, if one is running. -/
structure Outcome.Drills (start : Position α) (latched : Option α) (outcome : Outcome α)
    (hole : Hole α) : Prop where
  motion : outcome.state.motion = some .drill
  levels : Hole.ofRegisters? { outcome.state.drill with initialLevel := latched }
    outcome.state.distance (start.get outcome.state.plane.normal) = some hole
  latches : outcome.state.drill.initialLevel = some hole.initialLevel
  leaves : outcome.state.position.get outcome.state.plane.normal = hole.retract

/-- What an outcome does to the running series. -/
structure Outcome.Carries (start : Position α) (latched : Option α) (outcome : Outcome α) :
    Prop where
  idle : outcome.request.hole = none → outcome.state.drill.initialLevel =
    if outcome.state.motion = some .drill then latched else none
  drills : ∀ hole, outcome.request.hole = some hole → outcome.Drills start latched hole

section

variable {s : State α} {request : Request α} {latched : Option α}

theorem State.carries_drillLine (axes : AxisWords α) (callsCycle : Bool)
    (hnone : request.hole = none) (hmotion : s.motion = some .drill)
    (hlevel : s.drill.initialLevel = latched) :
    (s.drillLine request axes callsCycle).Carries request.start latched := by
  subst hlevel
  simp only [State.drillLine]
  split
  · split
    · -- a hole of which a level is missing
      exact ⟨fun _ => (if_pos hmotion).symm, fun hole h => by simp [hnone] at h⟩
    · rename_i hole levels
      refine ⟨fun h => by simp at h, fun other h => ?_⟩
      obtain rfl : hole = other := Option.some.inj h
      exact ⟨hmotion, levels, rfl, Position.get_set_self _ _ _⟩
  · exact ⟨fun _ => (if_pos hmotion).symm, fun hole h => by simp [hnone] at h⟩

theorem State.carries_motionLine (request : Request α) (axes : AxisWords α)
    (words : List (Word α)) (hnone : request.hole = none)
    (hlevel : s.drill.initialLevel = if s.motion = some .drill then latched else none) :
    (s.motionLine request axes words).Carries request.start latched := by
  have stays : ∀ findings, Outcome.Carries request.start latched ⟨s, request, findings⟩ :=
    fun _ => ⟨fun _ => hlevel, fun hole h => by simp [hnone] at h⟩
  simp only [State.motionLine]
  split
  · exact stays _
  · split
    · exact stays _
    · rename_i drilling
      rw [if_pos drilling] at hlevel
      exact State.carries_drillLine axes _ hnone drilling hlevel
    · split
      · exact ⟨fun _ => hlevel, fun hole h => by simp [hnone] at h⟩
      · exact stays _

end

/-- **A line drills a hole of the running series, or carries the series on, or ends it.** -/
theorem State.carries_apply (old : State α) (words : List (Word α)) :
    (old.apply words).Carries old.position old.drill.initialLevel := by
  have level : (old.read words).drill.initialLevel =
      if (old.read words).motion = some .drill then old.drill.initialLevel else none := by
    obtain ⟨-, motion, drill⟩ := State.foldl_applyRegister_keeps
      (old.applyModes words).units.scale words (old.applyModes words)
    rw [State.read, motion, drill]
    exact State.initialLevel_applyModes old words
  have carries := State.carries_motionLine (old.asked words)
    (.ofWords (old.applyModes words).units.scale words) words rfl level
  refine ⟨carries.idle, fun hole h => ?_⟩
  obtain ⟨motion, levels, latches, leaves⟩ := carries.drills hole h
  exact ⟨motion, levels, latches, leaves⟩

end NumericalControl
