/-
  NumericalControl/Register.lean
  ==============================
  **Registers.**  Tool offsets are kept in numbered registers, of which there are two
  kinds.  A register number is a 32-bit number, and so is an operation code.
-/

namespace NumericalControl

/-- The two tables of tool offsets. -/
inductive RegisterKind where
  | length | diameter
  deriving DecidableEq, Repr

def RegisterKind.letter : RegisterKind → Char
  | .length => 'H'
  | .diameter => 'D'

/-- The largest register number. -/
def registerLimit : Nat := 4294967295

end NumericalControl
