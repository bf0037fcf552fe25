/-
  NumericalControl/Modal/Code.lean
  ================================
  **What a word asks for.**  A G or M word names an operation by a whole number, and
  most operations set a mode.  Modes fall into groups: within a group the last word of a
  line wins, and across groups the order on a line is free.  `Role.of` sorts every word
  into one of a few roles; the rest of the library never looks at code numbers again.
-/
import NumericalControl.Modal.State
import NumericalControl.Register
import NumericalControl.Word

namespace NumericalControl

/-- How far from a whole number a code may be written. -/
def codeTolerance {α : Type} [Scalar α] : α := 1e-6

/-- The whole number that a value stands for: it is not negative and at most
    `codeTolerance` away. Numbers above the limit of registers stand for the limit. -/
def codeNumber? {α : Type} [Scalar α] (value : α) : Option Nat :=
  let rounded := Scalar.round value
  if (0.0 : α) ≤ value ∧ Scalar.abs (value - rounded) < codeTolerance then
    some (min (Scalar.floor rounded) registerLimit)
  else none

/-- A group of modes of which a line should set at most one. -/
inductive Group where
  | motion | plane | units | cutter | length | workOffset | distance | retract | spindle
  deriving DecidableEq, Repr

inductive Setting where
  | motion (motion : Option Motion)
  | plane (plane : Plane)
  | units (units : Units)
  | cutter (side : Option Side)
  | length (active : Bool)
  | workOffset (name : String)
  | distance (mode : DistanceMode)
  | retract (mode : RetractMode)
  | spindle (direction : Option Direction)
  deriving DecidableEq, Repr

namespace Setting

def group : Setting → Group
  | motion _ => .motion
  | plane _ => .plane
  | units _ => .units
  | cutter _ => .cutter
  | length _ => .length
  | workOffset _ => .workOffset
  | distance _ => .distance
  | retract _ => .retract
  | spindle _ => .spindle

/-- The mode that a G code sets. -/
def ofGCode? : Nat → Option Setting
  | 0 => some (motion (some .rapid))
  | 1 => some (motion (some .linear))
  | 2 => some (motion (some (.arc .clockwise)))
  | 3 => some (motion (some (.arc .counterClockwise)))
  | 17 => some (plane .xy)
  | 18 => some (plane .xz)
  | 19 => some (plane .yz)
  | 20 => some (units .inches)
  | 21 => some (units .millimetres)
  | 40 => some (cutter none)
  | 41 => some (cutter (some .left))
  | 42 => some (cutter (some .right))
  | 43 => some (length true)
  | 49 => some (length false)
  | 54 => some (workOffset "G54")
  | 55 => some (workOffset "G55")
  | 56 => some (workOffset "G56")
  | 57 => some (workOffset "G57")
  | 58 => some (workOffset "G58")
  | 59 => some (workOffset "G59")
  | 80 => some (motion none)
  | 81 => some (motion (some .drill))
  | 90 => some (distance .absolute)
  | 91 => some (distance .incremental)
  | 98 => some (retract .initialLevel)
  | 99 => some (retract .rPlane)
  | _ => none

/-- The mode that an M code sets. -/
def ofMCode? : Nat → Option Setting
  | 3 => some (spindle (some .clockwise))
  | 4 => some (spindle (some .counterClockwise))
  | 5 => some (spindle none)
  | _ => none

def apply {α : Type} (s : State α) : Setting → State α
  | motion m => { s with motion := m }
  | plane p => { s with plane := p }
  | units u => { s with units := u }
  | cutter side => { s with cutterSide := side }
  | length active => { s with lengthComp := active }
  | workOffset name => { s with workOffset := name }
  | distance mode => { s with distance := mode }
  | retract mode => { s with drill := { s.drill with retract := mode } }
  | spindle direction => { s with spindle := direction }

end Setting

/-- The G code of a pause. -/
def dwellCode : Nat := 4

/-- M codes that are accepted and have no effect on the path: stops, program ends, tool
    change and coolant. -/
def inertMCodes : List Nat := [0, 1, 2, 6, 7, 8, 9, 30]

/-- What a word does to the modes. -/
inductive Role where
  | sets (setting : Setting)
  | tool (number : Nat)
  /-- Asks for a pause on this line. -/
  | dwell
  /-- An unknown G code. The line keeps its modes and registers but moves nothing. -/
  | passthrough
  /-- An unknown M code, without further effect. -/
  | unknownMCode
  /-- A tool number that is none. -/
  | invalid
  /-- A word without a role here. -/
  | neutral
  deriving DecidableEq, Repr

namespace Role

/-- The role of a G word with the given code. -/
def ofGCode (code : Option Nat) : Role :=
  match code with
  | none => passthrough
  | some n =>
    if n = dwellCode then dwell
    else match Setting.ofGCode? n with
      | some setting => sets setting
      | none => passthrough

/-- The role of an M word with the given code. -/
def ofMCode (code : Option Nat) : Role :=
  match code with
  | none => unknownMCode
  | some n =>
    if n ∈ inertMCodes then neutral
    else match Setting.ofMCode? n with
      | some setting => sets setting
      | none => unknownMCode

def of {α : Type} [Scalar α] (w : Word α) : Role :=
  if w.letter = 'G' then ofGCode (codeNumber? w.value)
  else if w.letter = 'M' then ofMCode (codeNumber? w.value)
  else if w.letter = 'T' then
    match codeNumber? w.value with
    | some n => tool n
    | none => invalid
  else neutral

def group? : Role → Option Group
  | sets setting => some setting.group
  | _ => none

def apply {α : Type} (s : State α) : Role → State α
  | sets setting => setting.apply s
  | tool n => { s with tool := n }
  | _ => s

end Role

end NumericalControl
