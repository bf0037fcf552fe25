/-
  NumericalControl/Fault.lean
  ===========================
  **Faults.**  A fault ends an operation.  A program, however bad, causes only findings;
  faults come from a machine setup that makes no sense, from a program that moves
  nothing or is too long, and from a request for a command that is not there.
-/
import NumericalControl.Decimal.Text
import NumericalControl.Register

namespace NumericalControl

inductive SetupFault (α : Type) where
  | rapidFeed (value : α)
  | arcRadiusTolerance
  | fullCircleTolerance
  | maxLines
  | travelLimits
  /-- Register 0 stands for "no offset". -/
  | reservedRegister (kind : RegisterKind)
  | repeatedRegister (kind : RegisterKind) (register : Nat)
  /-- Two names of work offsets that differ at most in case. -/
  | repeatedName (name : String)
  /-- A document without an entry that it must have. -/
  | missingEntry (name : String)
  /-- A document with a key of too many parts. -/
  | longKey
  /-- A document that is no setup: its text or the type of an entry is wrong. -/
  | unreadable
  deriving DecidableEq, Repr

/-- Why an operation ended. -/
inductive Fault (α : Type) where
  | emptyProgram
  | commandOutOfRange (index count : Nat)
  | lineLimitExceeded (line limit : Nat)
  | setup (cause : SetupFault α)
  deriving DecidableEq, Repr

namespace SetupFault

def message? : SetupFault Float → Option String
  | rapidFeed value =>
    some ("machine.rapid_feed must be a positive number, got " ++ Decimal.Text.shortest value)
  | arcRadiusTolerance => some "machine.arc_radius_tolerance must be positive"
  | fullCircleTolerance => some "machine.full_circle_tolerance must be positive"
  | maxLines => some "machine.max_lines must be at least 1 when set"
  | travelLimits => some "machine.travel_limits min must not exceed max on any axis"
  | reservedRegister kind =>
    some (kind.letter.toString
      ++ "0 is reserved for \"no compensation\" and cannot hold an offset")
  | repeatedRegister kind register =>
    some (kind.letter.toString ++ toString register ++ " is defined more than once")
  | repeatedName name => some (name ++ " is defined more than once")
  | longKey => some "recursion limit\n"
  | missingEntry _ | unreadable => none

end SetupFault

namespace Fault

/-- The text of a fault. A document without a required entry is told by that entry, and
    a document that cannot be read has no text of its own. -/
def message? : Fault Float → Option String
  | emptyProgram => some "program contains no motion commands"
  | commandOutOfRange index count =>
    some ("command index " ++ toString index ++ " out of range; toolpath has "
      ++ toString count ++ " commands")
  | lineLimitExceeded line limit =>
    some ("line " ++ toString line ++ " is past the limit of " ++ toString limit)
  | setup (.missingEntry name) => some ("missing field \x60" ++ name ++ "\x60")
  | setup cause => cause.message?.map ("config error: " ++ ·)

end Fault

end NumericalControl
