/-
  NumericalControl/Toolpath.lean
  ==============================
  **Toolpaths.**  A toolpath is a program worked out in full: its commands in order,
  totals over all of them, and what was found on the way.
-/
import NumericalControl.Toolpath.Command
import NumericalControl.Toolpath.Search

namespace NumericalControl

structure Stats (α : Type) where
  totalDistance : α
  cuttingDistance : α
  rapidDistance : α
  /-- Degrees turned; no part of a distance. -/
  rotaryTravel : α
  /-- Seconds of pause. -/
  dwellTime : α
  /-- Seconds of motion and pause. -/
  estimatedTime : α
  boundingBox : Box α
  commandCount : Nat
  deriving DecidableEq, Repr

structure Toolpath (α : Type) where
  commands : Array (Command α)
  stats : Stats α
  diagnostics : Array (Diagnostic α)
  deriving DecidableEq, Repr

namespace Toolpath

variable {α : Type}

def size (path : Toolpath α) : Nat := path.commands.size

def commandAt (path : Toolpath α) (index : Nat) : Except (Fault α) (Command α) :=
  match path.commands[index]? with
  | some command => .ok command
  | none => .error (.commandOutOfRange index path.size)

/-- The place of the first command of a line, if the line has any. -/
def firstOfLine? (path : Toolpath α) (line : Nat) : Option Nat :=
  let place := partitionPoint (fun c : Command α => decide (c.line < line)) path.commands
  (path.commands[place]?.filter (·.line == line)).map (·.index)

/-- The places of the rapid commands that go below a level on Z. -/
def rapidsBelow [Scalar α] (path : Toolpath α) (level : α) : List Nat :=
  (path.commands.toList.filter fun c => c.isRapid && decide (c.bounds.min.z < level)).map
    (·.index)

end Toolpath

end NumericalControl
