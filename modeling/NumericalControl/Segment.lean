/-
  NumericalControl/Segment.lean
  =============================
  **The pieces of a path.**  A request becomes segments, still in program coordinates: one
  for a straight move or an arc, three for a hole.  An arc that the words of its line do
  not determine becomes a straight feed move, with a finding that says why.
-/
import NumericalControl.Arc.Radius
import NumericalControl.Machine
import NumericalControl.Modal.Request

namespace NumericalControl

/-- The three moves of a hole. -/
inductive DrillPhase where
  /-- Rapid to the R plane above the hole. -/
  | position
  /-- Feed down to the depth. -/
  | plunge
  /-- Rapid up to the retract level. -/
  | retract
  deriving DecidableEq, Repr

structure Segment (α : Type) where
  motion : Motion
  isRapid : Bool
  start : Position α
  target : Position α
  arc : Option (Arc α)
  phase : Option DrillPhase
  deriving DecidableEq, Repr

variable {α : Type} [Scalar α]

/-! ### Arcs -/

/-- The center that the words of a line place, with what there is to remark. Offsets go
    before the radius. Without a center there is always a finding that tells why. -/
def ArcWords.center (words : ArcWords α) (plane : Plane) (start target : α × α)
    (direction : Direction) (tolerance : α) : Option (α × α) × List (Finding α) :=
  if words.hasOffsets plane then
    let both := if words.r.isSome then [.centerAndRadius] else []
    let first := (words.offset plane.axes.1).getD 0.0
    let second := (words.offset plane.axes.2).getD 0.0
    if Scalar.hypot first second < tolerance then (none, both ++ [.zeroRadius])
    else (some (start.1 + first, start.2 + second), both)
  else match words.r with
    | none => (none, [.centerMissing plane])
    | some r =>
      match centerFromRadius start target r direction tolerance with
      | .center point => (some point, [])
      | .clamped point => (some point, [.shortRadius (Scalar.abs r)])
      | .undetermined => (none, [.undeterminedCenter])

/-- What there is to remark about the shape of an arc. -/
def Arc.findings (arc : Arc α) (tolerance : α) : List (Finding α) :=
  if arc.fullCircle then [.fullCircle]
  else if tolerance < Scalar.abs (arc.radius - arc.endRadius) then
    [.radiusMismatch arc.radius arc.endRadius]
  else []

namespace Segment

def straight (motion : Motion) (isRapid : Bool) (start target : Position α) : Segment α :=
  ⟨motion, isRapid, start, target, none, none⟩

def ofArc (request : Request α) (direction : Direction) (plane : Plane) (p : Parameters α) :
    Segment α × List (Finding α) :=
  let tolerance := p.fullCircleTolerance
  let (center?, remarks) := request.arc.center plane (plane.coords request.start)
    (plane.coords request.target) direction tolerance
  match center? with
  | none => (straight .linear false request.start request.target, remarks)
  | some center =>
    let arc := Arc.through plane center request.start request.target direction tolerance
    (⟨.arc direction, false, request.start, request.target, some arc, none⟩,
      remarks ++ arc.findings p.arcRadiusTolerance)

/-! ### Holes -/

/-- The three segments of a hole along the given tool axis. -/
def ofHole (request : Request α) (hole : Hole α) (toolAxis : Axis) : List (Segment α) :=
  let above := request.target.set toolAxis hole.rPlane
  let bottom := request.target.set toolAxis hole.depth
  [⟨.drill, true, request.start, above, none, some .position⟩,
   ⟨.drill, false, above, bottom, none, some .plunge⟩,
   ⟨.drill, true, bottom, request.target, none, some .retract⟩]

/-- The segments of a request, in the plane in force after its line. -/
def ofRequest (request : Request α) (plane : Plane) (p : Parameters α) :
    List (Segment α) × List (Finding α) :=
  match request.motion with
  | none => ([], [])
  | some .rapid => ([straight .rapid true request.start request.target], [])
  | some .linear => ([straight .linear false request.start request.target], [])
  | some (.arc direction) =>
    let (segment, findings) := ofArc request direction plane p
    ([segment], findings)
  | some .drill =>
    match request.hole with
    | none => ([], [])
    | some hole =>
      (ofHole request hole plane.normal,
        if hole.rPlane < hole.depth then [.depthAboveRPlane] else [])

end Segment

end NumericalControl
