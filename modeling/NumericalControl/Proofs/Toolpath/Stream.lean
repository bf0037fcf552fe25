/-
  NumericalControl/Proofs/Toolpath/Stream.lean
  ============================================
  **The shape of a toolpath.**  A line that moves gives one command that drills nothing, or
  the three legs of a hole in their order (`LineShape`).  Its commands stand next to each
  other, behind those of earlier lines and in front of those of later ones, and share the
  memory after the line.  A command is rapid and has an arc just as its motion and its
  phase say, and the arc turns in the plane of that memory (`Toolpath.WellFormed`).

  All of this is seen on the segments of one request (`Segment.shape_ofRequest`,
  `Segment.fits_ofRequest`).  The commands of a toolpath are the moves of its lines, one
  line after the other, so what is behind and in front of a line comes from the numbers of
  the lines alone (`exists_block_programMoves`).
-/
import NumericalControl.Proofs.Segment
import NumericalControl.Proofs.Toolpath.Fold
import NumericalControl.Proofs.Toolpath.Growth

namespace NumericalControl

/-- The motions and the phases of the commands of one line. -/
inductive LineShape : List (Motion × Option DrillPhase) → Prop
  | move {motion : Motion} (drillsNothing : motion ≠ .drill) : LineShape [(motion, none)]
  | hole : LineShape
      [(.drill, some .position), (.drill, some .plunge), (.drill, some .retract)]

/-- The direction of an arc motion. -/
def Motion.direction? : Motion → Option Direction
  | .arc direction => some direction
  | _ => none

variable {α : Type}

/-! ### The segments of a request -/

/-- A move is rapid as its motion and its phase say, and has an arc exactly for an arc
    motion, which turns the same way and in the plane. -/
structure Fits (plane : Plane) (motion : Motion) (phase : Option DrillPhase) (isRapid : Bool)
    (arc : Option (Arc α)) : Prop where
  rapid : isRapid = true ↔ motion = .rapid ∨ phase = some .position ∨ phase = some .retract
  direction : arc.map Arc.direction = motion.direction?
  plane : ∀ a, arc = some a → a.plane = plane

def Segment.Fits (plane : Plane) (s : Segment α) : Prop :=
  NumericalControl.Fits plane s.motion s.phase s.isRapid s.arc

def Command.Fits (c : Command α) : Prop :=
  NumericalControl.Fits c.state.plane c.motion c.phase c.isRapid c.arc

theorem Segment.fits_straight {motion : Motion} (undirected : motion.direction? = none)
    (plane : Plane) (start target : Position α) :
    (straight motion (decide (motion = .rapid)) start target).Fits plane := by
  constructor
  · simp [straight]
  · exact undirected.symm
  · intro arc h
    cases h

variable [Scalar α]

theorem Segment.fits_ofArc (request : Request α) (direction : Direction) (plane : Plane)
    (machine : Parameters α) : (ofArc request direction plane machine).1.Fits plane := by
  simp only [ofArc]
  split
  · exact fits_straight rfl plane _ _
  · constructor
    · simp
    · rfl
    · intro arc h
      cases h
      rfl

theorem Segment.motion_ofArc_ne_drill (request : Request α) (direction : Direction)
    (plane : Plane) (machine : Parameters α) :
    (ofArc request direction plane machine).1.motion ≠ .drill ∧
      (ofArc request direction plane machine).1.phase = none := by
  simp only [ofArc]
  split <;> simp [straight]

/-- **Each segment of a request fits its plane.** -/
theorem Segment.fits_ofRequest {request : Request α} {plane : Plane} {machine : Parameters α}
    {segment : Segment α} (mem : segment ∈ (ofRequest request plane machine).1) :
    segment.Fits plane := by
  simp only [ofRequest] at mem
  split at mem
  · cases mem
  · rw [List.mem_singleton.mp mem]
    exact fits_straight rfl plane _ _
  · rw [List.mem_singleton.mp mem]
    exact fits_straight rfl plane _ _
  · rw [List.mem_singleton.mp mem]
    exact fits_ofArc _ _ _ _
  · split at mem
    · cases mem
    · simp only [ofHole, List.mem_cons, List.not_mem_nil, or_false] at mem
      rcases mem with rfl | rfl | rfl
      all_goals
        constructor
        · simp
        · rfl
        · intro arc h
          cases h

/-- **The segments of a request have the shape of a line**, where there are any. -/
theorem Segment.shape_ofRequest {request : Request α} {plane : Plane} {machine : Parameters α}
    (moving : (ofRequest request plane machine).1 ≠ []) :
    LineShape ((ofRequest request plane machine).1.map fun s => (s.motion, s.phase)) := by
  simp only [ofRequest] at moving ⊢
  split
  · rename_i idle
    simp [idle] at moving
  · exact .move Motion.noConfusion
  · exact .move Motion.noConfusion
  · rename_i direction _
    obtain ⟨motion, phase⟩ := motion_ofArc_ne_drill request direction plane machine
    rw [List.map_singleton, phase]
    exact .move motion
  · rename_i drilling
    split
    · rename_i unknown
      simp [drilling, unknown] at moving
    · exact .hole

/-! ### The moves of a program -/

theorem mem_moves {machine : Parameters α} {line : Nat} {outcome : Outcome α} {move : Move α}
    (mem : move ∈ outcome.moves machine line) :
    move.line = line ∧ move.state = outcome.state := by
  obtain ⟨segment, -, rfl⟩ := List.mem_map.mp mem
  exact ⟨rfl, rfl⟩

theorem shape_moves {machine : Parameters α} {line : Nat} {outcome : Outcome α}
    (moving : outcome.moves machine line ≠ []) :
    LineShape ((outcome.moves machine line).map fun m => (m.motion, m.phase)) := by
  rw [Outcome.moves, List.map_map]
  refine Segment.shape_ofRequest fun still => moving ?_
  rw [Outcome.moves, still]
  rfl

/-- **The moves of a line stand together**, behind those of earlier lines and in front of
    those of later ones. -/
theorem exists_block_programMoves {machine : Parameters α} {lines : List String} {move : Move α}
    (mem : move ∈ programMoves machine lines) :
    ∃ front block back, programMoves machine lines = front ++ block ++ back ∧
      (∀ m ∈ front, m.line < move.line) ∧
      (∀ m ∈ block, m.line = move.line ∧ m.state = move.state) ∧
      (∀ m ∈ back, move.line < m.line) ∧
      LineShape (block.map fun m => (m.motion, m.phase)) := by
  unfold programMoves at mem ⊢
  have rising : (((State.initial : State α).outcomes lines).zipIdx 1).Pairwise
      fun row other => row.2 < other.2 := by
    rw [← List.pairwise_map (f := Prod.snd) (R := (· < ·)), List.zipIdx_map_snd]
    exact List.pairwise_lt_range'
  -- the lines are numbered upwards, so the row of the move splits them by their numbers
  obtain ⟨⟨outcome, line⟩, found, mem⟩ := List.mem_flatMap.mp mem
  obtain ⟨rows, rows', split⟩ := List.mem_iff_append.mp found
  rw [split] at rising ⊢
  obtain ⟨-, later, earlier⟩ := List.pairwise_append.mp rising
  obtain ⟨own, state⟩ := mem_moves mem
  refine ⟨rows.flatMap fun row => row.1.moves machine row.2, outcome.moves machine line,
    rows'.flatMap fun row => row.1.moves machine row.2, ?_, ?_, ?_, ?_, ?_⟩
  · simp
  · intro m mem
    obtain ⟨row, found, mem⟩ := List.mem_flatMap.mp mem
    rw [own, (mem_moves mem).1]
    exact earlier row found _ List.mem_cons_self
  · intro m mem
    obtain ⟨line, memory⟩ := mem_moves mem
    exact ⟨line.trans own.symm, memory.trans state.symm⟩
  · intro m mem
    obtain ⟨row, found, mem⟩ := List.mem_flatMap.mp mem
    rw [own, (mem_moves mem).1]
    exact (List.pairwise_cons.mp later).1 row found
  · exact shape_moves (List.ne_nil_of_mem mem)

namespace Toolpath

/-! ### Toolpaths -/

/-- The shape of a toolpath of a program with the given number of lines. -/
structure WellFormed (lineCount : Nat) (path : Toolpath α) : Prop where
  nonempty : path.commands ≠ #[]
  index : ∀ (i : Nat) (c : Command α), path.commands[i]? = some c → c.index = i
  between : ∀ c ∈ path.commands, 1 ≤ c.line ∧ c.line ≤ lineCount
  ascending : path.commands.toList.Pairwise fun c d => c.line ≤ d.line
  findings : path.diagnostics.toList.Pairwise fun d e => d.line ≤ e.line
  /-- The commands of one line stand together, share a memory, and are one move or the
      three legs of a hole. -/
  block : ∀ c ∈ path.commands, ∃ front block back,
    path.commands.toList = front ++ block ++ back ∧
      (∀ d ∈ front, d.line < c.line) ∧
      (∀ d ∈ block, d.line = c.line ∧ d.state = c.state) ∧
      (∀ d ∈ back, c.line < d.line) ∧
      LineShape (block.map fun d => (d.motion, d.phase))
  fits : ∀ c ∈ path.commands, c.Fits

theorem moves_of_build {setup : Setup α} {text : String} {path : Toolpath α}
    (built : build setup text = .ok path) :
    path.commands.toList.map Command.move = programMoves setup.machine (programLines text) := by
  rw [Stretch.moves_of_carried (carried built), Course.moves_ofLines]

theorem exists_block {setup : Setup α} {text : String} {path : Toolpath α}
    (built : build setup text = .ok path) {c : Command α} (mem : c ∈ path.commands) :
    ∃ front block back, path.commands.toList = front ++ block ++ back ∧
      (∀ d ∈ front, d.line < c.line) ∧
      (∀ d ∈ block, d.line = c.line ∧ d.state = c.state) ∧
      (∀ d ∈ back, c.line < d.line) ∧
      LineShape (block.map fun d => (d.motion, d.phase)) := by
  have moves := moves_of_build built
  have moved : c.move ∈ programMoves setup.machine (programLines text) := by
    rw [← moves]
    exact List.mem_map_of_mem (Array.mem_toList_iff.mpr mem)
  obtain ⟨front, block, back, split, before, own, behind, shape⟩ := exists_block_programMoves moved
  rw [split] at moves
  obtain ⟨most, back', commands, most_eq, rfl⟩ := List.map_eq_append_iff.mp moves
  obtain ⟨front', block', rfl, rfl, rfl⟩ := List.map_eq_append_iff.mp most_eq
  refine ⟨front', block', back', commands, ?_, ?_, ?_, ?_⟩
  · exact fun d mem => before d.move (List.mem_map_of_mem mem)
  · exact fun d mem => own d.move (List.mem_map_of_mem mem)
  · exact fun d mem => behind d.move (List.mem_map_of_mem mem)
  · rw [List.map_map] at shape
    exact shape

theorem fits_of_build {setup : Setup α} {text : String} {path : Toolpath α}
    (built : build setup text = .ok path) {c : Command α} (mem : c ∈ path.commands) : c.Fits := by
  obtain ⟨i, hc⟩ := Array.mem_iff_getElem?.mp mem
  obtain ⟨stretch, found, carriesIt⟩ := Stretch.exists_carried (carried built) hc
  obtain ⟨earlier, text, later, -, -, -, after, segment⟩ :=
    Course.mem_ofLines (List.mem_of_getElem? found)
  obtain ⟨rapid, direction, plane⟩ := Segment.fits_ofRequest segment
  constructor
  · rw [carriesIt.isRapid, carriesIt.motion, carriesIt.phase]
    exact rapid
  · rw [carriesIt.arc, carriesIt.motion, ← direction, Option.map_map]
    rfl
  · intro arc h
    rw [carriesIt.arc] at h
    -- an arc that is carried to the machine keeps its plane
    obtain ⟨own, given, rfl⟩ := Option.map_eq_some_iff.mp h
    rw [carriesIt.state, after]
    exact plane own given

/-- **A toolpath is well formed**, whatever its program holds. -/
theorem wellFormed_of_build {setup : Setup α} {text : String} {path : Toolpath α}
    (built : build setup text = .ok path) :
    path.WellFormed (programLines text).length := by
  obtain ⟨commands, diagnostics, index⟩ := ordered_of_build built
  constructor
  case nonempty => exact commands_ne_empty built
  case index => exact index
  case between => exact fun c mem => line_of_build built mem
  case ascending => exact commands.pairwise
  case findings => exact diagnostics.pairwise
  case block => exact fun c mem => exists_block built mem
  case fits => exact fun c mem => fits_of_build built mem

/-- An arc, one whose center is missing, a blank line and a hole after a pause. -/
theorem wellFormed_arc_and_hole :
    let setup : Setup Float := ⟨.ofRapidFeed 5000.0, .empty⟩
    let text := "G2 X2 I1 F50\nG3 X4\n\nG0 X5\nG81 X6 R2 Z-3 P0.5"
    ∃ path, build setup text = .ok path ∧ path.WellFormed 5 ∧
      path.commands.toList.map (fun c => (c.line, c.motion)) =
        [(1, .arc .clockwise), (2, .linear), (4, .rapid), (5, .drill), (5, .drill),
          (5, .drill)] := by
  intro setup text
  have run : (build setup text).toOption.any (fun path =>
      decide (path.commands.toList.map (fun c => (c.line, c.motion)) =
        [(1, .arc .clockwise), (2, .linear), (4, .rapid), (5, .drill), (5, .drill),
          (5, .drill)])) = true := by decide +kernel
  have lines : (programLines text).length = 5 := by decide +kernel
  obtain ⟨path, built, commands⟩ := exists_of_any run
  refine ⟨path, built, ?_, of_decide_eq_true commands⟩
  rw [← lines]
  exact wellFormed_of_build built

end Toolpath

end NumericalControl
