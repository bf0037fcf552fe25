/-
  NumericalControl/Machine.lean
  =============================
  **The machine.**  `Parameters` are the numbers that a program does not tell: how fast
  the machine traverses, how exact an arc must be, how long a program may be and how far
  the axes travel.  `Parameters.check` says which of them make sense; `Offsets` are the
  tables in force while a program is read, and a `Setup` is both.
-/
import NumericalControl.Box
import NumericalControl.Offset.Tool
import NumericalControl.Offset.Work

namespace NumericalControl

structure Parameters (α : Type) where
  /-- Speed of rapid moves in millimetres a minute. -/
  rapidFeed : α
  /-- How much the two radii of an arc may differ. -/
  arcRadiusTolerance : α
  /-- How near to each other two points are one point. -/
  fullCircleTolerance : α
  /-- How many lines a program may have, if that is limited. -/
  maxLines : Option Nat
  /-- Where the machine may go, if that is limited. -/
  travelLimits : Option (Box α)
  deriving DecidableEq, Repr

namespace Parameters

variable {α : Type} [Scalar α]

/-- Parameters with the usual tolerances and without limits. -/
def ofRapidFeed (rapidFeed : α) : Parameters α :=
  { rapidFeed
    arcRadiusTolerance := 0.005
    fullCircleTolerance := 1e-6
    maxLines := none
    travelLimits := none }

/-- The first thing that is wrong with the parameters, if any is. -/
def fault? (p : Parameters α) : Option (SetupFault α) :=
  if !Scalar.isPositive p.rapidFeed then some (.rapidFeed p.rapidFeed)
  else if !Scalar.isPositive p.arcRadiusTolerance then some .arcRadiusTolerance
  else if !Scalar.isPositive p.fullCircleTolerance then some .fullCircleTolerance
  else if p.maxLines = some 0 then some .maxLines
  else if p.travelLimits.any (!·.isWellFormed) then some .travelLimits
  else none

/-- Parameters that make sense. -/
def check (p : Parameters α) : Except (SetupFault α) Unit :=
  match p.fault? with
  | some fault => .error fault
  | none => .ok ()

end Parameters

structure Offsets (α : Type) where
  work : WorkOffsets α
  tool : ToolOffsets α

def Offsets.empty {α : Type} : Offsets α := ⟨.empty, .empty⟩

structure Setup (α : Type) where
  machine : Parameters α
  offsets : Offsets α

end NumericalControl
