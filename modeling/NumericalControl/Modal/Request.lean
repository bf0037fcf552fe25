/-
  NumericalControl/Modal/Request.lean
  ===================================
  **What one line asks for.**  `State.apply` reads the words of a line against the
  memory of the controller.  It gives the memory after the line, the motion that the
  line requests, if any, and the findings.

  The words are read three times, because a mode set anywhere on a line governs the
  whole line: first the modes, then the registers in the units now in force, then the
  axes.  Each reading is a fold or a look-up of the last word of a letter, so the order
  of words matters only between words of one letter or of one group of modes.

  Holes are drilled as a series.  The first hole latches the level of the tool before
  it, and the level stays latched until the motion mode leaves the drill cycle.
-/
import NumericalControl.Diagnostic

namespace NumericalControl

variable {α : Type}

/-! ### Arc words and axis words -/

/-- The words of a line that describe an arc, in millimetres. -/
structure ArcWords (α : Type) where
  i : Option α
  j : Option α
  k : Option α
  r : Option α
  deriving DecidableEq, Repr

namespace ArcWords

def empty : ArcWords α := ⟨none, none, none, none⟩

/-- The last word of each letter counts. -/
def ofWords [Scalar α] (scale : α) (words : List (Word α)) : ArcWords α :=
  let lastScaled := fun letter => (Word.last? letter words).map (· * scale)
  ⟨lastScaled 'I', lastScaled 'J', lastScaled 'K', lastScaled 'R'⟩

/-- The center's offset from the start along a linear axis. -/
def offset (arc : ArcWords α) : Axis → Option α
  | .x => arc.i
  | .y => arc.j
  | .z => arc.k
  | _ => none

/-- Whether the line places the center in the plane; one of both offsets suffices. -/
def hasOffsets (arc : ArcWords α) (plane : Plane) : Bool :=
  (arc.offset plane.axes.1).isSome || (arc.offset plane.axes.2).isSome

def isEmpty (arc : ArcWords α) : Bool :=
  arc.i.isNone && arc.j.isNone && arc.k.isNone && arc.r.isNone

end ArcWords

/-- The value given for each axis, where one is given. -/
abbrev AxisWords (α : Type) := Axis → Option α

namespace AxisWords

/-- The last word for each axis counts. Angles are not scaled. -/
def ofWords [Scalar α] (scale : α) (words : List (Word α)) : AxisWords α := fun axis =>
  (words.filter (·.axis? == some axis)).getLast?.map fun w =>
    if axis.isRotary then w.value else w.value * scale

theorem ofWords_eq [Scalar α] (scale : α) (words : List (Word α)) (axis : Axis) :
    ofWords scale words axis = (Word.last? axis.letter words).map fun value =>
      if axis.isRotary then value else value * scale := by
  have same : (fun w : Word α => w.axis? == some axis) = (·.letter == axis.letter) := by
    funext w
    rw [Bool.eq_iff_iff, beq_iff_eq, beq_iff_eq, Word.axis?_eq_some_iff]
  rw [ofWords, same, Word.last?, Option.map_map]
  rfl

def isAny (axes : AxisWords α) : Bool := Axis.all.any fun axis => (axes axis).isSome

/-- The position that the axis words lead to. An axis without a word stays. -/
def destination [Scalar α] (axes : AxisWords α) (mode : DistanceMode) (start : Position α) :
    Position α :=
  .ofAxes fun axis =>
    match axes axis, mode with
    | some value, .absolute => value
    | some step, .incremental => start.get axis + step
    | none, _ => start.get axis

end AxisWords

/-! ### Holes -/

/-- The levels of one hole along the axis of the tool. -/
structure Hole (α : Type) where
  initialLevel : α
  rPlane : α
  depth : α
  /-- Where the tool is left. -/
  retract : α
  deriving DecidableEq, Repr

/-- The hole that the registers describe for a tool that stands at `level`; both of its
    levels must be known. Incremental levels count down from the initial level: first
    to the R plane, then from there to the depth. -/
def Hole.ofRegisters? [Scalar α] (registers : DrillRegisters α) (mode : DistanceMode)
    (level : α) : Option (Hole α) :=
  match registers.rPlane, registers.depth with
  | some r, some d =>
    let initialLevel := registers.initialLevel.getD level
    let (rPlane, depth) := match mode with
      | .absolute => (r, d)
      | .incremental => (initialLevel + r, initialLevel + r + d)
    let retract := match registers.retract with
      | .initialLevel => Scalar.max initialLevel rPlane
      | .rPlane => rPlane
    some { initialLevel, rPlane, depth, retract }
  | _, _ => none

/-! ### Requests -/

/-- The motion and the pause that a line asks for. Without a motion the line stays where
    it starts. -/
structure Request (α : Type) where
  motion : Option Motion
  start : Position α
  target : Position α
  arc : ArcWords α
  /-- Present for drilling. -/
  hole : Option (Hole α)
  /-- Seconds of pause. -/
  dwell : Option α
  deriving DecidableEq, Repr

structure Outcome (α : Type) where
  state : State α
  request : Request α
  findings : List (Finding α)
  deriving DecidableEq, Repr

variable [Scalar α]

/-! ### First reading: modes -/

/-- Findings on the modes of a line, when words of the groups `seen` came before. -/
def modeFindings : (seen : List Group) → List (Word α) → List (Finding α)
  | _, [] => []
  | seen, w :: rest =>
    match Role.of w with
    | .sets setting =>
      if setting.group ∈ seen then .conflict w :: modeFindings seen rest
      else modeFindings (setting.group :: seen) rest
    | .passthrough => .unsupportedGCode w :: modeFindings seen rest
    | .unknownMCode => .unsupportedMCode w :: modeFindings seen rest
    | .invalid => .invalidValue w :: modeFindings seen rest
    | _ => modeFindings seen rest

/-- Outside the drill cycle no series of holes is running. -/
def State.endSeries (s : State α) : State α :=
  if s.motion = some .drill then s
  else { s with drill := { s.drill with initialLevel := none } }

def State.applyModes (s : State α) (words : List (Word α)) : State α :=
  (words.foldl (fun s w => (Role.of w).apply s) s).endSeries

/-! ### Second reading: feed, speed and registers -/

/-- Letters whose words the second reading leaves to the others. -/
def otherLetters : List Char := ['G', 'M', 'T', 'N', 'I', 'J', 'K', 'R']

/-- Stores what a word gives for a register; a value that does not suit it is left out. -/
def State.applyRegister (scale : α) (s : State α) (w : Word α) : State α :=
  if w.letter = 'F' then
    if (0.0 : α) ≤ w.value then { s with feedRate := w.value * scale } else s
  else if w.letter = 'S' then
    if (0.0 : α) ≤ w.value then { s with spindleSpeed := w.value } else s
  else if w.letter = 'H' then
    match codeNumber? w.value with
    | some n => { s with lengthRegister := n }
    | none => s
  else if w.letter = 'D' then
    match codeNumber? w.value with
    | some n => { s with diameterRegister := n }
    | none => s
  else s

/-- What the second reading finds about a word. -/
def registerFinding? (w : Word α) : Option (Finding α) :=
  if w.letter = 'F' ∨ w.letter = 'S' ∨ w.letter = 'P' then
    if (0.0 : α) ≤ w.value then none else some (.invalidValue w)
  else if w.letter = 'H' ∨ w.letter = 'D' then
    if (codeNumber? w.value).isSome then none else some (.invalidValue w)
  else if w.letter ∈ otherLetters ∨ w.axis?.isSome then none
  else some (.unsupportedLetter w)

/-- The pause that the last valid P word of a line gives, in seconds. -/
def dwellTime? (words : List (Word α)) : Option α :=
  Word.last? 'P' (words.filter fun w => decide ((0.0 : α) ≤ w.value))

/-! ### Third reading: motion -/

/-- Whether the line names the motion mode it moves in. -/
def namesMotion (words : List (Word α)) : Bool :=
  words.any fun w => (Role.of w).group? == some .motion

/-- Whether a word of the line is an unknown G code. -/
def isPassthrough (words : List (Word α)) : Bool :=
  words.any fun w => Role.of w == .passthrough

def asksForDwell (words : List (Word α)) : Bool :=
  words.any fun w => Role.of w == .dwell

/-- A line in the drill cycle. Its levels go to the registers, and a hole is drilled when
    the line gives any axis, or calls the cycle and gives the R plane. -/
def State.drillLine (s : State α) (request : Request α) (axes : AxisWords α)
    (callsCycle : Bool) : Outcome α :=
  let toolAxis := s.plane.normal
  let s := { s with drill := { s.drill with
    depth := (axes toolAxis).or s.drill.depth
    rPlane := request.arc.r.or s.drill.rPlane } }
  let idle := { request with arc := .empty }
  if axes.isAny || (callsCycle && request.arc.r.isSome) then
    match Hole.ofRegisters? s.drill s.distance (request.start.get toolAxis) with
    | none => ⟨s, idle, [.incompleteHole]⟩
    | some hole =>
      let target := (axes.destination s.distance request.start).set toolAxis hole.retract
      ⟨{ s with
          position := target
          drill := { s.drill with initialLevel := some hole.initialLevel } },
        { idle with motion := some .drill, target, hole := some hole }, []⟩
  else ⟨s, idle, []⟩

/-- A line whose modes and registers are in force. It moves when it gives any axis; for an
    arc the words of the arc suffice. -/
def State.motionLine (s : State α) (request : Request α) (axes : AxisWords α)
    (words : List (Word α)) : Outcome α :=
  if isPassthrough words then
    ⟨s, request, if axes.isAny then [.axesPassedThrough] else []⟩
  else match s.motion with
    | none => ⟨s, request, if axes.isAny then [.axesWithoutMotion] else []⟩
    | some .drill => s.drillLine request axes (namesMotion words)
    | some motion =>
      if axes.isAny || (motion.isArc && !request.arc.isEmpty) then
        let target := axes.destination s.distance request.start
        ⟨{ s with position := target }, { request with motion := some motion, target }, []⟩
      else ⟨s, request, []⟩

/-- Reads the words of a line. Nothing on a line makes this fail. -/
def State.apply (old : State α) (words : List (Word α)) : Outcome α :=
  let moded := old.applyModes words
  let scale : α := moded.units.scale
  let s := words.foldl (State.applyRegister scale) moded
  let dwell := if asksForDwell words then dwellTime? words else none
  let request : Request α :=
    { motion := none
      start := old.position
      target := old.position
      arc := .ofWords scale words
      hole := none
      dwell }
  let outcome := s.motionLine request (.ofWords scale words) words
  { outcome with
    findings := modeFindings [] words ++ words.filterMap registerFinding?
      ++ (if asksForDwell words && dwell.isNone then [.dwellWithoutTime] else [])
      ++ outcome.findings }

end NumericalControl
