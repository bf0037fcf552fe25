/-
  NumericalControl/Playback.lean
  ==============================
  **Looking along a toolpath.**  A cursor stands at a fractional command position: at
  2.5 it is halfway through the command with index 2, and at the number of commands it
  is at the end of the last.  Every cursor made here stands between zero and that
  number.  Stepping and seeking give new cursors.
-/
import NumericalControl.Toolpath

namespace NumericalControl

/-- Where the machine is at one instant, and how it moves. -/
structure Pose (α : Type) where
  position : Position α
  feedRate : α
  spindleSpeed : α
  isRapid : Bool
  deriving DecidableEq, Repr

structure Cursor (α : Type) where
  toolpath : Toolpath α
  position : α

namespace Cursor

variable {α : Type} [Scalar α]

/-- The cursor at a position, moved into the toolpath. The undefined value counts as the
    start. -/
def ofPosition (path : Toolpath α) (position : α) : Cursor α :=
  ⟨path, if Scalar.IsNaN position then 0.0
    else Scalar.clamp 0.0 (Scalar.ofNat path.size) position⟩

def ofIndex (path : Toolpath α) (index : Nat) : Cursor α :=
  ofPosition path (Scalar.ofNat index)

def first (path : Toolpath α) : Cursor α := ofPosition path 0.0

def last (path : Toolpath α) : Cursor α := ofIndex path path.size

/-- The cursor at a time from the start of the program. A time in a pause gives the start
    of the command after it. -/
def ofTime (path : Toolpath α) (seconds : α) : Cursor α :=
  if Scalar.IsNaN seconds ∨ seconds ≤ 0.0 then first path
  else
    let index := partitionPoint (fun c : Command α => decide (c.endTime ≤ seconds)) path.commands
    match path.commands[index]? with
    | none => last path
    | some c =>
      let fraction :=
        if seconds ≤ c.startTime ∨ c.duration ≤ 0.0 then 0.0
        else (seconds - c.startTime) / c.duration
      ofPosition path (Scalar.ofNat index + fraction)

/-- The cursor at the first command of a line, if the line has any. -/
def ofLine? (path : Toolpath α) (line : Nat) : Option (Cursor α) :=
  (path.firstOfLine? line).map (ofIndex path)

/-- The command that the cursor is in and the fraction of it that is done. The end of
    the toolpath is the end of its last command. -/
def segment (c : Cursor α) : Nat × α :=
  let last := c.toolpath.size - 1
  let index := Scalar.floor c.position
  if last < index then (last, 1.0) else (index, c.position - Scalar.ofNat index)

def command? (c : Cursor α) : Option (Command α) := c.toolpath.commands[c.segment.1]?

def line? (c : Cursor α) : Option Nat := c.command?.map (·.line)

/-- The memory of the controller after the line of the cursor. -/
def state? (c : Cursor α) : Option (State α) := c.command?.map (·.state)

def pose? (c : Cursor α) : Option (Pose α) :=
  c.command?.map fun command =>
    ⟨command.positionAt c.segment.2, command.feedRate, command.spindleSpeed, command.isRapid⟩

def elapsed (c : Cursor α) : α :=
  match c.command? with
  | some command => command.startTime + command.duration * c.segment.2
  | none => 0.0

/-- The start of the next line that moves, or the end. -/
def nextLine (c : Cursor α) : Cursor α :=
  let index := Scalar.floor c.position
  let commands := c.toolpath.commands
  match commands[index]? with
  | none => c
  | some current =>
    let rest := commands.toList.drop (index + 1)
    match rest.findIdx? (·.line != current.line) with
    | some steps => ofIndex c.toolpath (index + 1 + steps)
    | none => last c.toolpath

/-- The start of the line before the cursor, which is the cursor's own line when it
    stands inside of it. -/
def previousLine (c : Cursor α) : Cursor α :=
  match Scalar.ceil c.position with
  | 0 => c
  | before + 1 =>
    let own := c.toolpath.commands[before]?.bind fun command =>
      c.toolpath.firstOfLine? command.line
    ofIndex c.toolpath (own.getD before)

end Cursor

end NumericalControl
