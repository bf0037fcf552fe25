/-
  NumericalControl/Proofs/Modal/Steps.lean
  ========================================
  **A step is the place it leads to.**  A line of steps asks for the same as the line of
  places in which each step is replaced by the place it leads to (`State.inPlaces`).  Along
  an axis a step counts from the position before the line.  A hole has three points to count
  from: its R plane is counted from the level of its series, its depth from the R plane, and
  the way to it from the position.  The offsets of an arc's center are steps in either mode
  and stay as they are.

  The first two readings take no notice of where steps count from, so only the third one
  has to be compared: a destination by its axes (`AxisWords.get_destination_steps`), and a
  hole by its levels (`Hole.ofRegisters?_steps`), with the axis of the tool apart, for the
  hole itself says where the tool is left.
-/
import NumericalControl.Proofs.Modal.Hole
import NumericalControl.Proofs.Modal.Passthrough
import NumericalControl.Proofs.Modal.Values

namespace NumericalControl

variable {α : Type} [Scalar α]

/-! ### Places -/

namespace State

variable (s : State α)

/-- The level from which a line counts a hole: where the series began, or where the tool
    stands. -/
def seriesLevel : α := s.drill.initialLevel.getD (s.position.get s.plane.normal)

/-- The place to which a word of an axis leads. The values of other words stay. -/
def axisPlaceOf (letter : Char) (step : α) : α :=
  match Axis.all.find? (·.letter == letter) with
  | some axis => s.position.get axis + step
  | none => step

/-- The same on a line that drills, for the R word `r`. -/
def holePlaceOf (r : α) (letter : Char) (step : α) : α :=
  if letter = 'R' then s.seriesLevel + step
  else if letter = s.plane.normal.letter then s.seriesLevel + r + step
  else s.axisPlaceOf letter step

/-- What the value of a word becomes when its line gives places instead of steps. -/
def placeOf (words : List (Word α)) : Char → α → α :=
  match (s.applyModes words).motion, Word.last? 'R' words with
  | some .drill, some r => s.holePlaceOf r
  | _, _ => s.axisPlaceOf

/-- The line of places for a line of steps. -/
def inPlaces (words : List (Word α)) : List (Word α) :=
  words.map (Word.revalued (s.placeOf words))

end State

/-- The letters of words that are no steps, whatever the line does. -/
def fixedLetters : List Char := ['G', 'M', 'T', 'P', 'F', 'S', 'H', 'D', 'I', 'J', 'K']

namespace State

variable (s : State α)

theorem axisPlaceOf_axis (axis : Axis) :
    s.axisPlaceOf axis.letter = (s.position.get axis + ·) := by
  funext step
  cases axis <;> rfl

theorem axisPlaceOf_keeps : KeepsValues s.axisPlaceOf ('R' :: fixedLetters) := by
  have apart : ∀ letter ∈ 'R' :: fixedLetters, Axis.all.find? (·.letter == letter) = none := by
    simp [fixedLetters, Axis.all, Axis.letter]
  intro letter mem step
  rw [axisPlaceOf, apart letter mem]

theorem holePlaceOf_keeps (r : α) : KeepsValues (s.holePlaceOf r) fixedLetters := by
  have apart : ∀ letter ∈ fixedLetters, letter ≠ 'R' ∧ letter ≠ s.plane.normal.letter := by
    cases s.plane <;> simp [fixedLetters, Plane.normal, Axis.letter]
  intro letter mem step
  rw [holePlaceOf, if_neg (apart letter mem).1, if_neg (apart letter mem).2]
  exact s.axisPlaceOf_keeps letter (List.mem_cons_of_mem _ mem) step

theorem placeOf_keeps (words : List (Word α)) : KeepsValues (s.placeOf words) fixedLetters := by
  unfold placeOf
  split
  · exact s.holePlaceOf_keeps _
  · exact s.axisPlaceOf_keeps.mono (List.subset_cons_self _ _)

theorem holePlaceOf_axis (r : α) {axis : Axis} (other : axis ≠ s.plane.normal) :
    s.holePlaceOf r axis.letter = (s.position.get axis + ·) := by
  have letter : axis.letter ≠ s.plane.normal.letter := by
    revert other
    cases axis <;> cases s.plane <;> decide
  have notR : axis.letter ≠ 'R' := by cases axis <;> decide
  funext step
  rw [holePlaceOf, if_neg notR, if_neg letter, axisPlaceOf_axis]

theorem holePlaceOf_normal (r step : α) :
    s.holePlaceOf r s.plane.normal.letter step = s.seriesLevel + r + step := by
  have notR : s.plane.normal.letter ≠ 'R' := by cases s.plane <;> decide
  rw [holePlaceOf, if_neg notR, if_pos rfl]

theorem placeOf_of_drill {words : List (Word α)} {r : α}
    (drilling : (s.applyModes words).motion = some .drill) (given : Word.last? 'R' words = some r) :
    s.placeOf words = s.holePlaceOf r := by
  simp only [placeOf, drilling, given]

theorem placeOf_of_not_drill {words : List (Word α)}
    (notDrill : (s.applyModes words).motion ≠ some .drill) :
    s.placeOf words = s.axisPlaceOf := by
  unfold placeOf
  split
  · exact absurd ‹_› notDrill
  · rfl

end State

/-! ### The third reading -/

omit [Scalar α] in
theorem Position.set_congr {p q : Position α} {axis : Axis}
    (h : ∀ other, other ≠ axis → p.get other = q.get other) (value : α) :
    p.set axis value = q.set axis value := by
  refine ext_get fun other => ?_
  by_cases same : other = axis
  · rw [same, get_set_self, get_set_self]
  · rw [get_set_of_ne _ same, get_set_of_ne _ same, h other same]

/-- **A step along an axis is the place it leads to.** -/
theorem AxisWords.get_destination_steps {steps places : AxisWords α} {start : Position α}
    {axis : Axis} (h : places axis = (steps axis).map (start.get axis + ·)) :
    (places.destination .absolute start).get axis =
      (steps.destination .incremental start).get axis := by
  simp only [destination, Position.get_ofAxes, h]
  cases steps axis <;> rfl

theorem AxisWords.isAny_steps {steps places : AxisWords α} {start : Position α}
    (h : ∀ axis, places axis = (steps axis).map (start.get axis + ·)) :
    places.isAny = steps.isAny := by
  simp only [isAny, h, Option.isSome_map]

/-- **The levels of a hole are counted down from the level of the series.** -/
theorem Hole.ofRegisters?_steps (registers : DrillRegisters α) (level r d : α) :
    let initialLevel := registers.initialLevel.getD level
    ofRegisters? { registers with rPlane := some (initialLevel + r),
                                  depth := some (initialLevel + r + d) } .absolute level =
      ofRegisters? { registers with rPlane := some r, depth := some d } .incremental level := rfl

namespace State

variable {s : State α} {request : Request α} {steps places : AxisWords α}

theorem motionLine_steps (notDrill : s.motion ≠ some .drill) (words : List (Word α))
    (h : ∀ axis, places axis = (steps axis).map (request.start.get axis + ·)) :
    (((Setting.distance .absolute).apply s).motionLine request places words).request =
      (((Setting.distance .incremental).apply s).motionLine request steps words).request := by
  have target : places.destination .absolute request.start =
      steps.destination .incremental request.start :=
    Position.ext_get fun axis => AxisWords.get_destination_steps (h axis)
  simp only [motionLine, Setting.apply, AxisWords.isAny_steps h, target]
  split
  · rfl
  · split
    · rfl
    · rename_i drilling
      exact absurd drilling notDrill
    · split <;> rfl

theorem motionLine_of_drill {words : List (Word α)} (drilling : s.motion = some .drill)
    (known : isPassthrough words = false) (request : Request α) (axes : AxisWords α) :
    s.motionLine request axes words = s.drillLine request axes (namesMotion words) := by
  simp only [motionLine, known, Bool.false_eq_true, if_false, drilling]

/-- A line that drills and gives both levels of its hole. -/
theorem drillLine_steps {arc : ArcWords α} (callsCycle : Bool) {r z : α}
    (hr : request.arc.r = some r) (hz : steps s.plane.normal = some z)
    (hr' : arc.r = some (s.drill.initialLevel.getD (request.start.get s.plane.normal) + r))
    (hz' : places s.plane.normal =
      some (s.drill.initialLevel.getD (request.start.get s.plane.normal) + r + z))
    (h : ∀ axis, axis ≠ s.plane.normal →
      places axis = (steps axis).map (request.start.get axis + ·)) :
    (((Setting.distance .absolute).apply s).drillLine { request with arc } places
        callsCycle).request =
      (((Setting.distance .incremental).apply s).drillLine request steps callsCycle).request := by
  have any : ∀ {axes : AxisWords α} {z : α}, axes s.plane.normal = some z → axes.isAny = true :=
    fun given => List.any_eq_true.mpr ⟨_, Axis.mem_all _, by rw [given]; rfl⟩
  have target : ∀ level : α, (places.destination .absolute request.start).set s.plane.normal level =
      (steps.destination .incremental request.start).set s.plane.normal level :=
    Position.set_congr fun axis other => AxisWords.get_destination_steps (h axis other)
  have hole := Hole.ofRegisters?_steps s.drill (request.start.get s.plane.normal) r z
  simp only [drillLine, Setting.apply, any hz, any hz', Bool.true_or, if_true, hr, hz, hr', hz',
    Option.some_or, hole, target]
  split <;> rfl

end State

/-! ### Lines -/

/-- A line in millimetres of which the values of axes, and of R where it drills, may be read
    as steps: no word says how they are to be read, in which unit or in which plane, and a
    line that drills gives both levels of its hole. -/
structure State.MayStep (s : State Float) (words : List (Word Float)) : Prop where
  millimetres : s.units = .millimetres
  distance : ∀ w ∈ words, w.sets .distance = false
  units : ∀ w ∈ words, w.sets .units = false
  plane : ∀ w ∈ words, w.sets .plane = false
  known : ∀ w ∈ words, ¬w.IsUnsupported
  levels : (s.applyModes words).motion = some .drill →
    (∃ w ∈ words, w.letter = 'R') ∧ ∃ w ∈ words, w.letter = s.plane.normal.letter

namespace State.MayStep

variable {s : State Float} {words : List (Word Float)} (may : s.MayStep words)

include may

theorem units_applyModes (mode : DistanceMode) :
    (((Setting.distance mode).apply s).applyModes words).units = .millimetres := by
  have unit := setting_applyModes may.units ((Setting.distance mode).apply s)
  exact (Setting.units.inj unit).trans may.millimetres

theorem plane_read : (s.read words).plane = s.plane :=
  Setting.plane.inj (setting_read may.plane s)

theorem isPassthrough_eq : isPassthrough words = false := by
  refine List.any_eq_false.mpr fun w mem passthrough => ?_
  exact may.known w mem (Role.of_eq_passthrough_iff.mp (beq_iff_eq.mp passthrough))

theorem moved_steps :
    ((Setting.distance .incremental).apply s).moved words =
      ((Setting.distance .incremental).apply (s.read words)).motionLine (s.asked words)
        (.ofWords Units.millimetres.scale words) words := by
  rw [moved, may.units_applyModes, read_setting (by decide) (by decide) may.distance,
    asked_setting (by decide) (by decide) may.distance]

theorem moved_inPlaces :
    ((Setting.distance .absolute).apply s).moved (s.inPlaces words) =
      ((Setting.distance .absolute).apply (s.read words)).motionLine
        { s.asked words with arc := .ofWords Units.millimetres.scale (s.inPlaces words) }
        (.ofWords Units.millimetres.scale (s.inPlaces words)) words := by
  have keeps : KeepsValues (s.placeOf words) ['G', 'M', 'T', 'P', 'F', 'S', 'H', 'D'] :=
    (s.placeOf_keeps words).mono (by simp [fixedLetters])
  rw [inPlaces, moved_revalued keeps, may.units_applyModes,
    read_setting (by decide) (by decide) may.distance,
    asked_setting (by decide) (by decide) may.distance]

theorem asked_arc : (s.asked words).arc = .ofWords Units.millimetres.scale words :=
  congrArg (fun units : Units => ArcWords.ofWords units.scale words)
    (may.units_applyModes s.distance)

omit may in
theorem axisWords_inPlaces (axis : Axis) :
    AxisWords.ofWords Units.millimetres.scale (s.inPlaces words) axis =
      (AxisWords.ofWords Units.millimetres.scale words axis).map
        (s.placeOf words axis.letter) := by
  rw [AxisWords.ofWords_millimetres, AxisWords.ofWords_millimetres, inPlaces,
    Word.last?_revalued]

theorem request_of_not_drill (notDrill : (s.applyModes words).motion ≠ some .drill) :
    (((Setting.distance .absolute).apply s).moved (s.inPlaces words)).request =
      (((Setting.distance .incremental).apply s).moved words).request := by
  have place := s.placeOf_of_not_drill notDrill
  have fixed : ∀ letter ∈ 'R' :: fixedLetters,
      Word.last? letter (s.inPlaces words) = Word.last? letter words := by
    intro letter mem
    have keeps : s.placeOf words letter = id :=
      funext fun value => by rw [place]; exact s.axisPlaceOf_keeps letter mem value
    rw [inPlaces, Word.last?_revalued, keeps, Option.map_id, id]
  have arc : ArcWords.ofWords Units.millimetres.scale (s.inPlaces words) =
      (s.asked words).arc := by
    rw [may.asked_arc, ArcWords.ofWords_millimetres, ArcWords.ofWords_millimetres,
      fixed 'I' (by simp [fixedLetters]), fixed 'J' (by simp [fixedLetters]),
      fixed 'K' (by simp [fixedLetters]), fixed 'R' (by simp)]
  have motion : (s.read words).motion ≠ some .drill := by
    rwa [read, (foldl_applyRegister_keeps _ words _).2.1]
  rw [may.moved_steps, may.moved_inPlaces, arc]
  refine motionLine_steps motion words fun axis => ?_
  rw [axisWords_inPlaces, place, axisPlaceOf_axis]
  rfl

theorem request_of_drill (drilling : (s.applyModes words).motion = some .drill) :
    (((Setting.distance .absolute).apply s).moved (s.inPlaces words)).request =
      (((Setting.distance .incremental).apply s).moved words).request := by
  obtain ⟨⟨w, hw, isR⟩, v, hv, isLevel⟩ := may.levels drilling
  obtain ⟨r, hr⟩ := Option.isSome_iff_exists.mp (isR ▸ Word.isSome_last? hw)
  obtain ⟨z, hz⟩ := Option.isSome_iff_exists.mp (isLevel ▸ Word.isSome_last? hv)
  have place := s.placeOf_of_drill drilling hr
  have drills : ∀ mode, ((Setting.distance mode).apply (s.read words)).motion = some .drill :=
    fun _ => (foldl_applyRegister_keeps _ words _).2.1.trans drilling
  have level : (s.read words).drill.initialLevel.getD
      ((s.asked words).start.get (s.read words).plane.normal) = s.seriesLevel := by
    have latched : (s.read words).drill.initialLevel = s.drill.initialLevel := by
      rw [read, (foldl_applyRegister_keeps _ words _).2.2, initialLevel_applyModes,
        if_pos drilling]
    rw [latched, may.plane_read]
    rfl
  rw [may.moved_steps, may.moved_inPlaces,
    motionLine_of_drill (drills .absolute) may.isPassthrough_eq,
    motionLine_of_drill (drills .incremental) may.isPassthrough_eq]
  refine drillLine_steps (r := r) (z := z) _ ?_ ?_ ?_ ?_ fun axis other => ?_
  · rw [may.asked_arc, ArcWords.ofWords_millimetres, hr]
  · rw [may.plane_read, AxisWords.ofWords_millimetres, hz]
  · rw [level, ArcWords.ofWords_millimetres]
    simp only [inPlaces, Word.last?_revalued, hr, place]
    rfl
  · rw [level, may.plane_read, axisWords_inPlaces, AxisWords.ofWords_millimetres, hz, place]
    exact congrArg some (s.holePlaceOf_normal r z)
  · rw [may.plane_read] at other
    rw [axisWords_inPlaces, place, s.holePlaceOf_axis r other]
    rfl

end State.MayStep

/-- **A line of steps asks for the same as the line of places it stands for**, in every
    motion mode, and leads to the same position. -/
theorem State.apply_inPlaces {s : State Float} {words : List (Word Float)}
    (may : s.MayStep words) :
    let incremental := { s with distance := .incremental }.apply words
    let absolute := { s with distance := .absolute }.apply (s.inPlaces words)
    absolute.request = incremental.request ∧
      absolute.state.position = incremental.state.position := by
  intro incremental absolute
  have request : absolute.request = incremental.request := by
    by_cases drilling : (s.applyModes words).motion = some .drill
    · exact may.request_of_drill drilling
    · exact may.request_of_not_drill drilling
  have target : absolute.request.target = absolute.state.position :=
    (State.moves_apply _ _).target_eq
  have target' : incremental.request.target = incremental.state.position :=
    (State.moves_apply _ _).target_eq
  exact ⟨request, by rw [← target, ← target', request]⟩

/-- A hole that leaves the tool at its R plane, with a step across, a turn and a feed. -/
theorem State.apply_inPlaces_hole :
    let old : State Float := (State.initial.apply (Line.read "G0 X5 Y1 Z10").words).state
    let words : List (Word Float) := (Line.read "G99 G81 X2 B30 R-8 Z-5 F100").words
    let incremental := { old with distance := .incremental }.apply words
    let absolute := { old with distance := .absolute }.apply (old.inPlaces words)
    old.MayStep words ∧
      (absolute.request = incremental.request ∧
        absolute.state.position = incremental.state.position) ∧
      (old.inPlaces words).map Word.value = [99.0, 81.0, 7.0, 30.0, 2.0, -3.0, 100.0] ∧
      absolute.request.hole = some ⟨10.0, 2.0, -3.0, 2.0⟩ := by
  intro old words incremental absolute
  have may : old.MayStep words :=
    { millimetres := rfl
      distance := by decide +kernel
      units := by decide +kernel
      plane := by decide +kernel
      known := by decide +kernel
      levels := fun _ => by decide +kernel }
  exact ⟨may, State.apply_inPlaces may, by decide +kernel, by decide +kernel⟩

end NumericalControl
