/-
  NumericalControl/Axis.lean
  ==========================
  **The five axes of the machine.**  X, Y and Z are linear and measured in millimetres,
  A and B turn and are measured in degrees.
-/

namespace NumericalControl

inductive Axis where
  | x | y | z | a | b
  deriving DecidableEq, Repr

namespace Axis

def linear : List Axis := [x, y, z]

def all : List Axis := [x, y, z, a, b]

theorem mem_all (axis : Axis) : axis ∈ all := by cases axis <;> decide

def letter : Axis → Char
  | x => 'X'
  | y => 'Y'
  | z => 'Z'
  | a => 'A'
  | b => 'B'

def ofLetter? (c : Char) : Option Axis := all.find? (·.letter == c.toUpper)

theorem ofLetter?_letter (axis : Axis) : ofLetter? axis.letter = some axis := by
  cases axis <;> decide

/-- Rotary axes carry angles, which no choice of length unit scales. -/
def isRotary : Axis → Bool
  | a | b => true
  | _ => false

end Axis

end NumericalControl
