/-
  NumericalControl/Proofs/Modal/Persistence.lean
  ==============================================
  **What a line leaves as it was.**  Everything in memory persists until a word of its own
  kind is on a line: a mode until a word of its group, a register until a word of its
  letter with a value that suits it, a level of the drill cycle until a line in that cycle
  gives it, a coordinate until a word of its axis.  Only the axis of the tool moves without
  a word of its own, to the retract level of a hole.  `Outcome.Persists` says all of this
  about the outcome of a line, and `State.persists_apply` proves it of every line.

  Each reading of a line is looked at alone.  The first two are folds, and a fold that
  changes something has a step that changes it (`exists_step_of_foldl_ne`), so for them it
  is enough to know what one word does.  For the third there is `Outcome.Keeps`.
-/
import Mathlib.Tactic.ByContra
import NumericalControl.Proofs.Modal.Line
import NumericalControl.Proofs.Modal.Mode

namespace NumericalControl

variable {α : Type}

theorem exists_step_of_foldl_ne {σ β γ : Type} {f : σ → β → σ} (view : σ → γ)
    {steps : List β} {s : σ} (h : view (steps.foldl f s) ≠ view s) :
    ∃ x ∈ steps, ∃ t, view (f t x) ≠ view t := by
  induction steps generalizing s with
  | nil => exact absurd rfl h
  | cons x rest ih =>
    by_cases first : view (f s x) = view s
    · rw [List.foldl_cons, ← first] at h
      obtain ⟨y, mem, t, changed⟩ := ih h
      exact ⟨y, List.mem_cons_of_mem _ mem, t, changed⟩
    · exact ⟨x, List.mem_cons_self, s, first⟩

/-- The last step that writes decides what is seen. -/
theorem foldl_last_write {σ β γ : Type} {f : σ → β → σ} (view : σ → γ) {front back : List β}
    {x : β} {value : γ} (writes : ∀ s, view (f s x) = value)
    (keeps : ∀ y ∈ back, ∀ s, view (f s y) = view s) (s : σ) :
    view ((front ++ x :: back).foldl f s) = value := by
  by_contra other
  rw [List.foldl_append, List.foldl_cons, ← writes (front.foldl f s)] at other
  obtain ⟨y, mem, t, changed⟩ := exists_step_of_foldl_ne view other
  exact changed (keeps y mem t)

theorem Word.exists_of_last? {letter : Char} {words : List (Word α)}
    (h : (Word.last? letter words).isSome) : ∃ w ∈ words, w.letter = letter := by
  obtain ⟨value, given⟩ := Option.isSome_iff_exists.mp h
  obtain ⟨w, last, -⟩ := Option.map_eq_some_iff.mp given
  have mem := List.mem_of_getLast? last
  simp only [List.mem_filter, beq_iff_eq] at mem
  exact ⟨w, mem⟩

theorem Word.exists_last {letter : Char} {words : List (Word α)} {value : α}
    (h : Word.last? letter words = some value) :
    ∃ front w back, words = front ++ w :: back ∧ w.letter = letter ∧ w.value = value ∧
      ∀ v ∈ back, v.letter ≠ letter := by
  obtain ⟨w, last, same⟩ := Option.map_eq_some_iff.mp h
  obtain ⟨others, filtered⟩ := List.getLast?_eq_some_iff.mp last
  obtain ⟨front, rest, rfl, -, own⟩ := List.filter_eq_append_iff.mp filtered
  obtain ⟨skipped, back, rfl, -, own, apart⟩ := List.filter_eq_cons_iff.mp own
  refine ⟨front ++ skipped, w, back, by rw [List.append_assoc], beq_iff_eq.mp own, same, ?_⟩
  exact fun v mem other => List.filter_eq_nil_iff.mp apart v mem (beq_iff_eq.mpr other)

theorem Word.isSome_last? {w : Word α} {words : List (Word α)} (mem : w ∈ words) :
    (Word.last? w.letter words).isSome := by
  rw [last?, Option.isSome_map, List.getLast?_isSome]
  exact List.ne_nil_of_mem (List.mem_filter.mpr ⟨mem, beq_self_eq_true _⟩)

theorem Word.last?_eq_none {letter : Char} {words : List (Word α)}
    (h : ∀ w ∈ words, w.letter ≠ letter) : Word.last? letter words = none := by
  rcases given : Word.last? letter words with _ | value
  · rfl
  · have last : (Word.last? letter words).isSome := by simp [given]
    obtain ⟨w, mem, same⟩ := exists_of_last? last
    exact absurd same (h w mem)

theorem Role.levels_apply (s : State α) (role : Role) :
    (role.apply s).drill.rPlane = s.drill.rPlane ∧ (role.apply s).drill.depth = s.drill.depth := by
  cases role with
  | sets setting => cases setting <;> exact ⟨rfl, rfl⟩
  | _ => exact ⟨rfl, rfl⟩

variable [Scalar α]

theorem AxisWords.get_destination_of_none {axes : AxisWords α} {axis : Axis}
    (h : axes axis = none) (mode : DistanceMode) (start : Position α) :
    (axes.destination mode start).get axis = start.get axis := by
  simp [destination, h]

/-! ### The first two readings -/

theorem State.setting_foldl_applyRegister (scale : α) (words : List (Word α)) (s : State α)
    (g : Group) : (words.foldl (State.applyRegister scale) s).setting g = s.setting g := by
  induction words generalizing s with
  | nil => rfl
  | cons w rest ih => rw [List.foldl_cons, ih, State.setting_applyRegister]

/-- **A mode changes only by a word of its group.** -/
theorem State.setting_read_ne {old : State α} {words : List (Word α)} {g : Group}
    (h : (old.read words).setting g ≠ old.setting g) : ∃ w ∈ words, w.sets g = true := by
  rw [State.read, State.setting_foldl_applyRegister, State.applyModes,
    State.setting_endSeries] at h
  obtain ⟨w, mem, s, changed⟩ := exists_step_of_foldl_ne (State.setting · g) h
  refine ⟨w, mem, Word.group_eq_some_iff.mp ?_⟩
  by_contra other
  exact changed (Role.setting_apply_of_ne other s)

/-- **A register changes only by a word of its letter whose value suits it.** -/
theorem State.register_read_ne {old : State α} {words : List (Word α)} {r : Register}
    (h : (old.read words).register r ≠ old.register r) :
    ∃ w ∈ words, w.letter = r.letter ∧ r.admits w.value = true := by
  by_contra none
  have unsuited : ∀ w ∈ words, ¬(w.letter = r.letter ∧ r.admits w.value = true) :=
    fun w mem suits => none ⟨w, mem, suits⟩
  by_cases modes : (old.applyModes words).register r = old.register r
  · rw [← modes] at h
    obtain ⟨w, mem, s, changed⟩ := exists_step_of_foldl_ne (State.register · r) h
    exact changed (State.register_applyRegister_of_ne _ (unsuited w mem) s)
  · rw [State.applyModes, State.register_endSeries] at modes
    obtain ⟨w, mem, s, changed⟩ := exists_step_of_foldl_ne (State.register · r) modes
    exact changed (Role.register_apply_of_ne (unsuited w mem) s)

theorem State.levels_applyModes (old : State α) (words : List (Word α)) :
    (old.applyModes words).drill.rPlane = old.drill.rPlane ∧
      (old.applyModes words).drill.depth = old.drill.depth := by
  have ended : ∀ s : State α, s.endSeries.drill.rPlane = s.drill.rPlane ∧
      s.endSeries.drill.depth = s.drill.depth := by
    intro s
    unfold State.endSeries
    split <;> exact ⟨rfl, rfl⟩
  simp only [State.applyModes, ended]
  induction words generalizing old with
  | nil => exact ⟨rfl, rfl⟩
  | cons w rest ih =>
    obtain ⟨rPlane, depth⟩ := ih ((Role.of w).apply old)
    obtain ⟨rPlane', depth'⟩ := Role.levels_apply old (Role.of w)
    exact ⟨rPlane.trans rPlane', depth.trans depth'⟩

theorem State.levels_read (old : State α) (words : List (Word α)) :
    (old.read words).drill.rPlane = old.drill.rPlane ∧
      (old.read words).drill.depth = old.drill.depth := by
  rw [State.read, (State.foldl_applyRegister_keeps _ words _).2.2]
  exact State.levels_applyModes old words

/-! ### The third reading -/

/-- What the third reading leaves as it was in a memory, given the axes and the arc words of
    the line. -/
structure Outcome.Keeps (s : State α) (axes : AxisWords α) (arc : ArcWords α)
    (passthrough : Bool) (outcome : Outcome α) : Prop where
  setting : ∀ g, outcome.state.setting g = s.setting g
  register : ∀ r, outcome.state.register r = s.register r
  rPlane : outcome.state.drill.rPlane ≠ s.drill.rPlane →
    s.motion = some .drill ∧ passthrough = false ∧ arc.r.isSome
  depth : outcome.state.drill.depth ≠ s.drill.depth →
    s.motion = some .drill ∧ passthrough = false ∧ (axes s.plane.normal).isSome
  axis : ∀ axis, axes axis = none →
    (outcome.request.hole.isSome → axis ≠ s.plane.normal) →
    outcome.state.position.get axis = s.position.get axis
  motion : outcome.request.motion = none ∨ outcome.request.motion = s.motion
  hole : outcome.request.hole.isSome ↔ outcome.request.motion = some .drill

namespace State

variable {s : State α} {request : Request α}

omit [Scalar α] in
theorem keeps_of_idle (axes : AxisWords α) (arc : ArcWords α) (passthrough : Bool)
    (idle : request.motion = none) (empty : request.hole = none) (findings : List (Finding α)) :
    Outcome.Keeps s axes arc passthrough ⟨s, request, findings⟩ where
  setting _ := rfl
  register _ := rfl
  rPlane changed := absurd rfl changed
  depth changed := absurd rfl changed
  axis _ _ _ := rfl
  motion := .inl idle
  hole := by simp [idle, empty]

theorem keeps_drillLine (axes : AxisWords α) (callsCycle : Bool)
    (start : request.start = s.position) (idle : request.motion = none)
    (empty : request.hole = none) (drilling : s.motion = some .drill) :
    (s.drillLine request axes callsCycle).Keeps s axes request.arc false := by
  -- both levels go to the registers, whether a hole is drilled or not
  have rPlane : request.arc.r.or s.drill.rPlane ≠ s.drill.rPlane →
      s.motion = some .drill ∧ false = false ∧ request.arc.r.isSome := by
    intro changed
    rcases given : request.arc.r with _ | r
    · simp [given] at changed
    · exact ⟨drilling, rfl, rfl⟩
  have depth : (axes s.plane.normal).or s.drill.depth ≠ s.drill.depth →
      s.motion = some .drill ∧ false = false ∧ (axes s.plane.normal).isSome := by
    intro changed
    rcases given : axes s.plane.normal with _ | d
    · simp [given] at changed
    · exact ⟨drilling, rfl, rfl⟩
  simp only [drillLine]
  split
  · split
    · refine ⟨fun g => ?_, fun r => ?_, rPlane, depth, fun _ _ _ => rfl, .inl idle, ?_⟩
      · cases g <;> rfl
      · cases r <;> rfl
      · simp [idle, empty]
    · refine ⟨fun g => ?_, fun r => ?_, rPlane, depth, ?_, .inr drilling.symm, ?_⟩
      · cases g <;> rfl
      · cases r <;> rfl
      · intro axis unnamed apart
        simp [apart rfl, AxisWords.get_destination_of_none unnamed, start]
      · simp
  · refine ⟨fun g => ?_, fun r => ?_, rPlane, depth, fun _ _ _ => rfl, .inl idle, ?_⟩
    · cases g <;> rfl
    · cases r <;> rfl
    · simp [idle, empty]

theorem keeps_motionLine (request : Request α) (axes : AxisWords α) (words : List (Word α))
    (start : request.start = s.position) (idle : request.motion = none)
    (empty : request.hole = none) :
    (s.motionLine request axes words).Keeps s axes request.arc (isPassthrough words) := by
  rcases passthrough : isPassthrough words with _ | _
  · simp only [motionLine, passthrough, Bool.false_eq_true, if_false]
    split
    · exact keeps_of_idle _ _ _ idle empty _
    · rename_i drilling
      exact keeps_drillLine axes _ start idle empty drilling
    · rename_i motion notDrill moving
      split
      · refine ⟨fun g => ?_, fun r => ?_, fun changed => absurd rfl changed,
          fun changed => absurd rfl changed, ?_, .inr moving.symm, ?_⟩
        · cases g <;> rfl
        · cases r <;> rfl
        · intro axis unnamed _
          simp [AxisWords.get_destination_of_none unnamed, start]
        · simpa [empty] using fun same => notDrill same
      · exact keeps_of_idle _ _ _ idle empty _
  · simp only [motionLine, passthrough, if_true]
    exact keeps_of_idle _ _ _ idle empty _

end State

/-! ### Whole lines -/

theorem State.keeps_apply (old : State α) (words : List (Word α)) :
    let scale : α := (old.applyModes words).units.scale
    (old.apply words).Keeps (old.read words) (.ofWords scale words) (.ofWords scale words)
      (isPassthrough words) := by
  intro scale
  have keeps := State.keeps_motionLine (old.asked words) (.ofWords scale words) words
    (State.position_read old words).symm rfl rfl
  exact ⟨keeps.setting, keeps.register, keeps.rPlane, keeps.depth, keeps.axis, keeps.motion,
    keeps.hole⟩

/-- What an outcome leaves as it was in the memory before its line, and what its request
    says about the way. -/
structure Outcome.Persists (old : State α) (words : List (Word α)) (outcome : Outcome α) :
    Prop where
  mode : ∀ g, outcome.state.setting g ≠ old.setting g → ∃ w ∈ words, w.sets g = true
  register : ∀ r, outcome.state.register r ≠ old.register r →
    ∃ w ∈ words, w.letter = r.letter ∧ r.admits w.value = true
  rPlane : outcome.state.drill.rPlane ≠ old.drill.rPlane →
    outcome.state.motion = some .drill ∧ isPassthrough words = false ∧
      ∃ w ∈ words, w.letter = 'R'
  depth : outcome.state.drill.depth ≠ old.drill.depth →
    outcome.state.motion = some .drill ∧ isPassthrough words = false ∧
      ∃ w ∈ words, w.letter = outcome.state.plane.normal.letter
  position : outcome.state.position ≠ old.position → outcome.request.motion.isSome
  start : outcome.request.start = old.position
  target : outcome.request.target = outcome.state.position
  /-- Without a word of its own, an axis moves only to drill a hole along it. -/
  axis : ∀ axis : Axis, (∀ w ∈ words, w.letter ≠ axis.letter) →
    (outcome.request.hole.isSome → axis ≠ outcome.state.plane.normal) →
    outcome.state.position.get axis = old.position.get axis
  motion : outcome.request.motion = none ∨ outcome.request.motion = outcome.state.motion
  hole : outcome.request.hole.isSome ↔ outcome.request.motion = some .drill

/-- **Modes, registers and coordinates persist until a word of their own kind.** -/
theorem State.persists_apply (old : State α) (words : List (Word α)) :
    (old.apply words).Persists old words := by
  have keeps := State.keeps_apply old words
  have moves := State.moves_apply old words
  have levels := State.levels_read old words
  have motion : (old.apply words).state.motion = (old.read words).motion :=
    Setting.motion.inj (keeps.setting .motion)
  have plane : (old.apply words).state.plane = (old.read words).plane :=
    Setting.plane.inj (keeps.setting .plane)
  refine ⟨?mode, ?register, ?rPlane, ?depth, ?position, moves.start_eq, moves.target_eq, ?axis,
    ?motion, keeps.hole⟩
  case mode =>
    intro g changed
    rw [keeps.setting] at changed
    exact State.setting_read_ne changed
  case register =>
    intro r changed
    rw [keeps.register] at changed
    exact State.register_read_ne changed
  case rPlane =>
    intro changed
    rw [← levels.1] at changed
    obtain ⟨drilling, passthrough, given⟩ := keeps.rPlane changed
    refine ⟨motion.trans drilling, passthrough, Word.exists_of_last? ?_⟩
    simpa [ArcWords.ofWords] using given
  case depth =>
    intro changed
    rw [← levels.2] at changed
    obtain ⟨drilling, passthrough, given⟩ := keeps.depth changed
    rw [plane]
    refine ⟨motion.trans drilling, passthrough, Word.exists_of_last? ?_⟩
    simpa [AxisWords.ofWords_eq] using given
  case position =>
    intro changed
    rcases asked : (old.apply words).request.motion with _ | m
    · exact absurd (moves.idle asked) changed
    · rfl
  case axis =>
    intro axis unnamed apart
    rw [plane] at apart
    rw [← State.position_read old words]
    refine keeps.axis axis ?_ apart
    simp [AxisWords.ofWords_eq, Word.last?_eq_none unnamed]
  case motion =>
    rw [motion]
    exact keeps.motion

end NumericalControl
