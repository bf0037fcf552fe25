/-
  NumericalControl/Proofs/Toolpath/ArcOffset.lean
  ===============================================
  **What an arc keeps on its way to the machine.**  In exact arithmetic the center and the
  end of an arc are both shifted by the work offset of their line, so the center as seen
  from the end is the programmed one.  The start is not carried over anew: it is where the
  command before ends, displaced by the memory in force there.  So the center as seen from
  the start is the programmed one exactly when that displacement agrees, in the plane of
  the arc, with the work offset of the line (`Stretch.CarriesArc.offset_iff`).

  The two agree as long as the work offset and the plane stay
  (`Stretch.CarriesArc.kept`).  Where the line of an arc takes up another work offset, they
  differ by the difference of both offsets, as for the circle of `exists_circle`.
-/
import NumericalControl.Proofs.Compensation
import NumericalControl.Proofs.Segment
import NumericalControl.Proofs.Toolpath.Success

namespace NumericalControl

/-! ### Offsets in a plane -/

section

variable {α : Type} [Scalar α]

/-- The position with the given coordinates in the plane, and zero outside it. -/
def Plane.place (plane : Plane) (v : α × α) : Position α :=
  (Position.zero.set plane.axes.1 v.1).set plane.axes.2 v.2

theorem Plane.coords_place (plane : Plane) (v : α × α) : plane.coords (plane.place v) = v := by
  unfold Plane.coords Plane.place
  rw [Position.get_set_self, Position.get_set_of_ne _ plane.fst_ne_snd, Position.get_set_self]

theorem Plane.place_inj {plane : Plane} {v w : α × α} : plane.place v = plane.place w ↔ v = w := by
  constructor
  · intro h
    rw [← plane.coords_place v, h, plane.coords_place]
  · rintro rfl
    rfl

/-- The offset that the arc words of a line give; what they leave out is zero. -/
def ArcWords.centerOffset (words : ArcWords α) (plane : Plane) : Position α :=
  plane.place ((words.offset plane.axes.1).getD 0.0, (words.offset plane.axes.2).getD 0.0)

/-- The memory under which the machine came to where the command at a place starts. -/
def Toolpath.frameBefore (path : Toolpath α) : Nat → State α
  | 0 => .initial
  | i + 1 => (path.commands[i]?.map Command.state).getD .initial

end

theorem Arc.centerOffset_eq (arc : Arc ℝ) (start : Position ℝ) :
    arc.centerOffset start = arc.plane.place (arc.center - arc.plane.coords start) := rfl

/-! ### Arcs that are carried over -/

/-- How a command carries the arc of its stretch.  Center and end are shifted alike, the
    start is displaced as the machine stands. -/
structure Stretch.CarriesArc (offsets : Offsets ℝ) (stretch : Stretch ℝ) (programmed : Arc ℝ)
    (c : Command ℝ) (arc : Arc ℝ) : Prop where
  plane : arc.plane = c.state.plane
  programmed_plane : programmed.plane = c.state.plane
  words : stretch.request.arc.hasOffsets c.state.plane = true →
    programmed.centerOffset stretch.segment.start =
      stretch.request.arc.centerOffset c.state.plane
  center : arc.center = programmed.center + c.state.plane.coords (offsets.shift c.state)
  target : c.state.plane.coords c.target =
    c.state.plane.coords stretch.segment.target + c.state.plane.coords (offsets.shift c.state)
  start : c.state.plane.coords c.start =
    c.state.plane.coords stretch.segment.start +
      c.state.plane.coords (offsets.displacement stretch.stand.frame stretch.stand.stroke)
  offset_iff : c.centerOffset? = some (programmed.centerOffset stretch.segment.start) ↔
    c.state.plane.coords (offsets.displacement stretch.stand.frame stretch.stand.stroke) =
      c.state.plane.coords (offsets.shift c.state)
  kept : stretch.stand.frame.workOffset = c.state.workOffset →
    (stretch.stand.frame.plane = c.state.plane ∨
      ¬(stretch.stand.frame.lengthComp ∧ 0 < stretch.stand.frame.lengthRegister)) →
    c.centerOffset? = some (programmed.centerOffset stretch.segment.start)

theorem Segment.ArcOf.centerOffset_eq {request : Request ℝ} {plane : Plane}
    {machine : Parameters ℝ} {segment : Segment ℝ} {arc : Arc ℝ} {direction : Direction}
    (h : Segment.ArcOf request plane machine segment arc direction)
    (offsets : request.arc.hasOffsets plane = true) :
    arc.centerOffset segment.start = request.arc.centerOffset plane := by
  have center := ArcWords.center_of_hasOffsets offsets h.center
  have same : arc.plane = plane := by rw [h.arc]; rfl
  rw [Arc.centerOffset_eq, same, center, h.start]
  unfold ArcWords.centerOffset
  rw [Plane.place_inj]
  exact Prod.ext (add_sub_cancel_left _ _) (add_sub_cancel_left _ _)

/-- **A command carries the arc of its stretch.** -/
theorem Stretch.carriesArc {offsets : Offsets ℝ} {stretch : Stretch ℝ} {c : Command ℝ}
    {machine : Parameters ℝ} {programmed arc : Arc ℝ}
    (carried : stretch.Carried offsets c)
    (place : stretch.segment.start = stretch.stand.place)
    (cut : stretch.segment ∈ (Segment.ofRequest stretch.request stretch.after.plane machine).1)
    (hprogrammed : stretch.segment.arc = some programmed) (harc : c.arc = some arc) :
    stretch.CarriesArc offsets programmed c arc := by
  obtain ⟨direction, source⟩ := Segment.arcOf_ofRequest cut hprogrammed
  have programmed_plane : programmed.plane = c.state.plane := by
    rw [source.arc, carried.state]
    rfl
  have rebased : arc = programmed.rebased (offsets.centerToMachine programmed.center stretch.after)
      c.start c.target := by
    have := carried.arc
    rw [harc, hprogrammed] at this
    exact Option.some.inj this
  have plane : arc.plane = c.state.plane := by
    rw [rebased, ← programmed_plane]
    rfl
  have center : arc.center =
      programmed.center + c.state.plane.coords (offsets.shift c.state) := by
    rw [rebased, carried.state]
    rfl
  have target : c.state.plane.coords c.target =
      c.state.plane.coords stretch.segment.target
        + c.state.plane.coords (offsets.shift c.state) := by
    rw [carried.target, carried.state]
    unfold Stand.onMachine
    rw [Offsets.toMachine_eq_add, Plane.coords_add, Stretch.leave, Stand.next,
      Offsets.coords_displacement]
  have start : c.state.plane.coords c.start =
      c.state.plane.coords stretch.segment.start +
        c.state.plane.coords (offsets.displacement stretch.stand.frame stretch.stand.stroke) := by
    rw [carried.start, place]
    unfold Stand.onMachine
    rw [Offsets.toMachine_eq_add, Plane.coords_add]
  have offset_iff : c.centerOffset? = some (programmed.centerOffset stretch.segment.start) ↔
      c.state.plane.coords (offsets.displacement stretch.stand.frame stretch.stand.stroke) =
        c.state.plane.coords (offsets.shift c.state) := by
    have offset : c.centerOffset? = some (arc.centerOffset c.start) := by
      unfold Command.centerOffset?
      rw [harc]
      rfl
    rw [offset, Option.some_inj, Arc.centerOffset_eq, Arc.centerOffset_eq, plane,
      programmed_plane, Plane.place_inj, center, start, add_sub_add_comm, add_eq_left,
      sub_eq_zero]
    exact eq_comm
  refine ⟨plane, programmed_plane, ?_, center, target, start, offset_iff, ?_⟩
  · intro h
    rw [carried.state] at h ⊢
    exact source.centerOffset_eq h
  · intro work still
    exact offset_iff.mpr (offsets.coords_displacement_of_same work still _)

/-! ### A circle under a new work offset -/

/-- A line that takes up a work offset and runs a full circle. -/
def circleText : String := "G55 G2 J5"

def circleWords : List (Word ℝ) := [.of 'G' (55 : ℕ), .of 'G' (2 : ℕ), .of 'J' (5 : ℕ)]

noncomputable def circleMemory : State ℝ :=
  { (State.initial : State ℝ) with
    motion := some (.arc .clockwise)
    workOffset := "G55" }

noncomputable def circleRequest : Request ℝ where
  motion := some (.arc .clockwise)
  start := .zero
  target := .zero
  arc := ⟨none, some 5, none, none⟩
  hole := none
  dwell := none

theorem words_circle : (Line.read circleText).words = circleWords := by
  have pieces : Line.allPieces (Comment.strip 0 circleText.toList) =
      [['G', '5', '5'], ['G', '2'], ['J', '5']] := by decide +kernel
  unfold Line.read Line.ofPieces
  rw [pieces]
  simp only [List.filterMap_cons, List.filterMap_nil]
  rw [Reals.ofPiece?_whole (n := 55) rfl (by decide),
    Reals.ofPiece?_whole (n := 2) rfl (by decide), Reals.ofPiece?_whole (n := 5) rfl (by decide)]
  rfl

theorem apply_circle :
    ∃ findings, State.initial.apply circleWords = ⟨circleMemory, circleRequest, findings⟩ := by
  have offset : Role.of (Word.of 'G' (55 : ℕ) : Word ℝ) = .sets (.workOffset "G55") :=
    Reals.role_gCode (by decide)
  have motion : Role.of (Word.of 'G' (2 : ℕ) : Word ℝ) = .sets (.motion (some (.arc .clockwise))) :=
    Reals.role_gCode (by decide)
  have center : Role.of (Word.of 'J' (5 : ℕ) : Word ℝ) = .neutral := rfl
  have moded : (State.initial : State ℝ).applyModes circleWords = circleMemory := by
    unfold State.applyModes circleWords
    simp only [List.foldl, offset, motion, center]
    rfl
  have registers (scale : ℝ) :
      circleWords.foldl (State.applyRegister scale) circleMemory = circleMemory := rfl
  have arc : ArcWords.ofWords (circleMemory.units.scale : ℝ) circleWords = circleRequest.arc := by
    change (⟨none, some ((5 : ℕ) * 1.0), none, none⟩ : ArcWords ℝ) = ⟨none, some 5, none, none⟩
    norm_num
  have axes (scale : ℝ) : AxisWords.ofWords scale circleWords = fun _ => none := by
    funext axis
    cases axis <;> rfl
  have dwell : asksForDwell circleWords = false := by
    unfold asksForDwell circleWords
    simp only [List.any, offset, motion, center]
    rfl
  have passthrough : isPassthrough circleWords = false := by
    unfold isPassthrough circleWords
    simp only [List.any, offset, motion, center]
    rfl
  unfold State.apply
  rw [moded]
  dsimp only
  rw [registers, arc, axes, dwell]
  unfold State.motionLine
  rw [passthrough]
  exact ⟨_, rfl⟩

/-- The stretch of the line, with its arc. -/
noncomputable def circleStretch (programmed : Arc ℝ) : Stretch ℝ where
  stand := .initial
  line := 1
  request := circleRequest
  after := circleMemory
  segment := ⟨.arc .clockwise, false, .zero, .zero, some programmed, none⟩

theorem segments_circle {machine : Parameters ℝ} (tolerance : machine.fullCircleTolerance ≤ 5) :
    ∃ programmed, (Segment.ofRequest circleRequest circleMemory.plane machine).1 =
      [(circleStretch programmed).segment] := by
  have radius : Scalar.hypot ((none : Option ℝ).getD 0.0) ((some (5 : ℝ)).getD 0.0) = 5 := by
    change Real.sqrt (0.0 * 0.0 + 5 * 5) = 5
    rw [show (0.0 * 0.0 + 5 * 5 : ℝ) = 5 * 5 by norm_num]
    exact Real.sqrt_mul_self (by norm_num)
  have long : ¬Scalar.hypot ((none : Option ℝ).getD 0.0) ((some (5 : ℝ)).getD 0.0) <
      machine.fullCircleTolerance := by
    rw [radius]
    exact not_lt.mpr tolerance
  have offsets : circleRequest.arc.hasOffsets .xy = true := rfl
  obtain ⟨programmed, placed⟩ := Segment.exists_ofArc .clockwise offsets long
  exact ⟨programmed, congrArg ([·]) placed⟩

theorem stretches_circle {machine : Parameters ℝ} {programmed : Arc ℝ}
    (cut : (Segment.ofRequest circleRequest circleMemory.plane machine).1 =
      [(circleStretch programmed).segment]) :
    (Course.ofLines machine (programLines circleText)).stretches = [circleStretch programmed] := by
  have lines : programLines circleText = [circleText] := by decide +kernel
  obtain ⟨findings, applied⟩ := apply_circle
  rw [lines, Course.stretches_single, words_circle]
  dsimp only
  rw [applied]
  dsimp only
  rw [cut]
  rfl

/-- The toolpath of the line has a command that carries the circle. -/
theorem exists_circle (offsets : Offsets ℝ) :
    let setup : Setup ℝ := ⟨.ofRapidFeed 5000, offsets⟩
    ∃ path c arc programmed, Toolpath.build setup circleText = .ok path
      ∧ path.commands[0]? = some c ∧ c.arc = some arc
      ∧ (Course.ofLines setup.machine (programLines circleText)).stretches[0]? =
          some (circleStretch programmed)
      ∧ c.state = circleMemory
      ∧ (circleStretch programmed).CarriesArc offsets programmed c arc := by
  intro setup
  have tolerance : setup.machine.fullCircleTolerance ≤ 5 := by
    norm_num [setup, Parameters.ofRapidFeed]
  obtain ⟨programmed, cut⟩ := segments_circle tolerance
  have stretches := stretches_circle cut
  have moves : (Course.ofLines setup.machine (programLines circleText)).stretches ≠ [] := by
    rw [stretches]
    exact List.cons_ne_nil _ _
  obtain ⟨path, built⟩ := Toolpath.exists_build (Reals.check_ofRapidFeed (by norm_num))
    (fun _ limit => (Option.some_ne_none _ limit.symm).elim) moves
  have carries := Toolpath.carried built
  rw [stretches] at carries ⊢
  obtain ⟨c, others, carried, -, commands⟩ := List.forall₂_cons_left_iff.mp carries
  have first : path.commands[0]? = some c := by
    rw [← Array.getElem?_toList, commands]
    rfl
  have member : (circleStretch programmed).segment ∈
      (Segment.ofRequest circleRequest circleMemory.plane setup.machine).1 := by
    rw [cut]
    exact List.mem_singleton_self _
  exact ⟨path, c, _, programmed, built, first, carried.arc, rfl, carried.state,
    Stretch.carriesArc carried rfl member rfl carried.arc⟩

/-! ### Arcs of toolpaths -/

namespace Toolpath

/-- The arc of the command at a place comes from a stretch of the program, which begins
    under the memory of the command before it. -/
def ArcKept (setup : Setup ℝ) (text : String) (path : Toolpath ℝ) (i : Nat) (c : Command ℝ)
    (arc : Arc ℝ) : Prop :=
  ∃ stretch programmed,
    (Course.ofLines setup.machine (programLines text)).stretches[i]? = some stretch
      ∧ stretch.segment.arc = some programmed ∧ stretch.line = c.line
      ∧ stretch.stand.frame = path.frameBefore i
      ∧ stretch.CarriesArc setup.offsets programmed c arc

/-- **What every arc of a toolpath keeps.**  Its center is the programmed one as seen from
    its end, and as seen from its start exactly when the machine stands displaced by the
    work offset of its line. -/
theorem arc_kept {setup : Setup ℝ} {text : String} {path : Toolpath ℝ} {i : Nat}
    {c : Command ℝ} {arc : Arc ℝ} (built : Toolpath.build setup text = .ok path)
    (hc : path.commands[i]? = some c) (harc : c.arc = some arc) :
    path.ArcKept setup text i c arc := by
  have carries := Toolpath.carried built
  have sound := Course.sound_ofLines setup.machine (programLines text)
  obtain ⟨stretch, hstretch, carried⟩ := Stretch.exists_carried carries hc
  have mem := List.mem_of_getElem? hstretch
  have cut : stretch.segment ∈
      (Segment.ofRequest stretch.request stretch.after.plane setup.machine).1 := by
    obtain ⟨_, _, _, -, -, request, after, found⟩ := Course.mem_ofLines mem
    rw [request, after]
    exact found
  have place := sound.leads.place_eq mem
  obtain ⟨programmed, hprogrammed, -⟩ := Option.map_eq_some_iff.mp (carried.arc.symm.trans harc)
  have frame : stretch.stand.frame = path.frameBefore i := by
    cases i with
    | zero => rw [sound.leads.head_eq hstretch]; rfl
    | succ i =>
      obtain ⟨later, -⟩ := Array.getElem?_eq_some_iff.mp hc
      have hbefore : path.commands[i]? = some path.commands[i] := Array.getElem?_eq_getElem _
      change _ = (path.commands[i]?.map Command.state).getD .initial
      rw [hbefore]
      obtain ⟨before, hstretch', carried'⟩ := Stretch.exists_carried carries hbefore
      rw [sound.leads.succ_eq hstretch' hstretch]
      exact carried'.state.symm
  exact ⟨stretch, programmed, hstretch, hprogrammed, carried.line.symm, frame,
    Stretch.carriesArc carried place cut hprogrammed harc⟩

theorem arc_kept_circle :
    let offsets : Offsets ℝ := ⟨WorkOffsets.empty.insert "G54" ⟨100, 0, 0, 0, 0⟩, .empty⟩
    let setup : Setup ℝ := ⟨.ofRapidFeed 5000, offsets⟩
    ∃ path c arc, Toolpath.build setup circleText = .ok path
      ∧ path.commands[0]? = some c ∧ c.arc = some arc ∧ path.ArcKept setup circleText 0 c arc := by
  intro offsets setup
  obtain ⟨path, c, arc, -, built, hc, harc, -⟩ := exists_circle offsets
  exact ⟨path, c, arc, built, hc, harc, arc_kept built hc harc⟩

/-- The offset is not the programmed one where the line of an arc takes up another work
    offset. -/
theorem arc_moved_by_offset :
    let offsets : Offsets ℝ := ⟨WorkOffsets.empty.insert "G54" ⟨100, 0, 0, 0, 0⟩, .empty⟩
    let setup : Setup ℝ := ⟨.ofRapidFeed 5000, offsets⟩
    ∃ path c arc stretch programmed, Toolpath.build setup circleText = .ok path
      ∧ path.commands[0]? = some c ∧ c.arc = some arc
      ∧ (Course.ofLines setup.machine (programLines circleText)).stretches[0]? = some stretch
      ∧ stretch.segment.arc = some programmed
      ∧ c.centerOffset? ≠ some (programmed.centerOffset stretch.segment.start) := by
  intro offsets setup
  obtain ⟨path, c, arc, programmed, built, hc, harc, hstretch, state, carries⟩ :=
    exists_circle offsets
  refine ⟨path, c, arc, circleStretch programmed, programmed, built, hc, harc, hstretch, rfl, ?_⟩
  have before : offsets.displacement .initial .approach = ⟨100, 0, 0, 0, 0⟩ := rfl
  have now : offsets.shift circleMemory = .zero := rfl
  have stand : (circleStretch programmed).stand = ⟨.zero, .initial, .approach⟩ := rfl
  rw [Ne, carries.offset_iff, state, stand, before, now]
  intro same
  have apart : (100 : ℝ) = 0.0 := congrArg Prod.fst same
  norm_num at apart

end Toolpath

end NumericalControl
