/-
  NumericalControl/Modal/State.lean
  =================================
  **What a controller remembers.**  Most words set a mode that stays in force until a
  later word of the same kind replaces it.  `State` is all of that memory together with
  the position reached, in program coordinates: before work offsets, and in millimetres
  whatever unit the program is written in.
-/
import NumericalControl.Plane

namespace NumericalControl

inductive Motion where
  | rapid
  | linear
  | arc (direction : Direction)
  | drill
  deriving DecidableEq, Repr

namespace Motion

def isArc : Motion → Bool
  | arc _ => true
  | _ => false

end Motion

inductive Units where
  | millimetres | inches
  deriving DecidableEq, Repr

def Units.scale {α : Type} [Scalar α] : Units → α
  | .millimetres => 1.0
  | .inches => 25.4

/-- Whether coordinates are places or steps from the place reached. -/
inductive DistanceMode where
  | absolute | incremental
  deriving DecidableEq, Repr

/-- The side of the path on which the cutter runs. -/
inductive Side where
  | left | right
  deriving DecidableEq, Repr

inductive RetractMode where
  /-- To the level at which the series of holes began. -/
  | initialLevel
  /-- To the level above the work at which feeding began. -/
  | rPlane
  deriving DecidableEq, Repr

/-- The memory of the drill cycle. Both levels are kept as programmed and are read
    against the distance mode of the line that drills. -/
structure DrillRegisters (α : Type) where
  retract : RetractMode
  rPlane : Option α
  depth : Option α
  /-- The level of the tool before the first hole of the running series. -/
  initialLevel : Option α
  deriving DecidableEq, Repr

/-- The memory of the controller. No motion mode is in force at first and after the
    word that cancels it; a spindle without direction stands still; a cutter without a
    side runs on the path. -/
structure State (α : Type) where
  position : Position α
  /-- Millimetres a minute. -/
  feedRate : α
  spindleSpeed : α
  spindle : Option Direction
  motion : Option Motion
  plane : Plane
  distance : DistanceMode
  units : Units
  /-- Name of the work offset in force. -/
  workOffset : String
  /-- Whether tool length compensation is on. -/
  lengthComp : Bool
  lengthRegister : Nat
  diameterRegister : Nat
  cutterSide : Option Side
  tool : Nat
  drill : DrillRegisters α
  deriving DecidableEq, Repr

def initialWorkOffset : String := "G54"

def State.initial {α : Type} [Scalar α] : State α where
  position := .zero
  feedRate := 0.0
  spindleSpeed := 0.0
  spindle := none
  motion := none
  plane := .xy
  distance := .absolute
  units := .millimetres
  workOffset := initialWorkOffset
  lengthComp := false
  lengthRegister := 0
  diameterRegister := 0
  cutterSide := none
  tool := 0
  drill := ⟨.initialLevel, none, none, none⟩

end NumericalControl
