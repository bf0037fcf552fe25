/-
  NumericalControl/Toolpath/Command.lean
  ======================================
  **Commands.**  A command is one move of the machine, in machine coordinates, together
  with all that a viewer wants to know about it: where it comes from, how long it is,
  when it runs, which box it stays in, and the memory of the controller after its line.
-/
import NumericalControl.Compensation
import NumericalControl.Segment

namespace NumericalControl

structure Command (α : Type) where
  /-- Place in the toolpath. -/
  index : Nat
  line : Nat
  /-- The text of the line, without blanks at its ends. -/
  source : String
  motion : Motion
  /-- Where the command before it ends. -/
  start : Position α
  target : Position α
  arc : Option (Arc α)
  feedRate : α
  spindleSpeed : α
  isRapid : Bool
  phase : Option DrillPhase
  cutter : Option (CutterReport α)
  /-- Millimetres along the path. -/
  length : α
  /-- Degrees turned by the rotary axes. -/
  rotaryTravel : α
  /-- Seconds from the start of the program. -/
  startTime : α
  duration : α
  bounds : Box α
  state : State α
  deriving DecidableEq, Repr

namespace Command

variable {α : Type} [Scalar α]

def endTime (c : Command α) : α := c.startTime + c.duration

/-- The center of an arc as seen from its start. -/
def centerOffset? (c : Command α) : Option (Position α) := c.arc.map (·.centerOffset c.start)

def radius? (c : Command α) : Option α := c.arc.map (·.radius)

/-- The position at fraction `t` of the command. From zero down and from one up it is
    exactly an end. -/
def positionAt (c : Command α) (t : α) : Position α :=
  if t ≤ 0.0 then c.start
  else if (1.0 : α) ≤ t then c.target
  else match c.arc with
    | some arc => arc.positionAt c.start c.target t
    | none => c.start.lerp c.target t

end Command

end NumericalControl
