/-
  NumericalControl/Proofs/Modal/Program.lean
  ==========================================
  **Programs as runs of the memory.**  A program gives the words of each of its lines.
  Before its first line the memory is the initial one, and each line leads on from the
  memory that the line before it leaves (`Program.before`).  The memories that lines can
  lead to are the reachable ones (`State.Reachable`); all of them are settled, so that a
  line without words changes nothing in any of them.

  A list of line texts is read in the same way, one text after the other
  (`State.outcomes`).
-/
import NumericalControl.Proofs.Modal.Line
import NumericalControl.Word.Line

namespace NumericalControl

variable {α : Type} [Scalar α]

/-- The memories that lines lead to, from the initial one. -/
inductive State.Reachable : State α → Prop
  | initial : Reachable .initial
  | line {s : State α} (h : s.Reachable) (words : List (Word α)) : Reachable (s.apply words).state

theorem State.Reachable.settled {s : State α} (h : s.Reachable) : s.Settled := by
  cases h with
  | initial => exact State.settled_initial
  | line _ words => exact State.settled_apply _ words

/-- What lines come to when they are read in turn from a memory. -/
def State.outcomes : State α → List String → List (Outcome α)
  | _, [] => []
  | s, text :: rest =>
    let outcome := s.apply (Line.read text).words
    outcome :: State.outcomes outcome.state rest

theorem State.length_outcomes (s : State α) (lines : List String) :
    (s.outcomes lines).length = lines.length := by
  induction lines generalizing s with
  | nil => rfl
  | cons text rest ih => rw [State.outcomes, List.length_cons, List.length_cons, ih]

/-- The words of each line of a program, counted from zero. A program that ends goes on
    with lines without words. -/
abbrev Program (α : Type) : Type := Nat → List (Word α)

namespace Program

def ofTexts (texts : List String) : Program α := fun n => (Line.read (texts.getD n "")).words

/-- The memory before a line. -/
def before (program : Program α) : Nat → State α
  | 0 => .initial
  | n + 1 => ((program.before n).apply (program n)).state

/-- What a line comes to in the memory before it. -/
def outcome (program : Program α) (n : Nat) : Outcome α := (program.before n).apply (program n)

theorem reachable_before (program : Program α) (n : Nat) : (program.before n).Reachable := by
  induction n with
  | zero => exact .initial
  | succ n ih => exact ih.line (program n)

end Program

end NumericalControl
