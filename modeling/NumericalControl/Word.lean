/-
  NumericalControl/Word.lean
  ==========================
  **Words.**  A program line is a row of words, each an address letter with a number:
  `G1`, `X-12.5`, `F300`.  This module holds the word and the reading of one written
  piece of text as a word.

  Small letters are read as capitals, and every word carries that its letter is no small
  one.  So words may be told apart by their letters as they stand, and a word is for an
  axis exactly when it has the letter of that axis (`Word.axis?_eq_some_iff`).

  What runs is built on the core library alone.  So two facts about capitals are proved
  here that Batteries has as `Char.isLower_toUpper_eq_false` and
  `Char.toUpper_eq_of_not_isLower`.
-/
import NumericalControl.Axis
import NumericalControl.Decimal

namespace NumericalControl

theorem isLower_toUpper (c : Char) : c.toUpper.isLower = false := by
  unfold Char.toUpper
  split
  · rename_i small
    have low : 97 ≤ c.val.toNat := UInt32.le_iff_toNat_le.mp small.1
    have high : c.val.toNat ≤ 122 := UInt32.le_iff_toNat_le.mp small.2
    have shift : ('A'.val - 'a'.val).toNat = 2 ^ 32 - 32 := by decide
    -- capitals lie 32 places before their small letters, of which there are only 26
    have below : ¬ 'a'.val ≤ c.val + ('A'.val - 'a'.val) := by
      rw [UInt32.le_iff_toNat_le, UInt32.toNat_add, shift]
      change ¬97 ≤ _
      omega
    exact Bool.and_eq_false_imp.mpr fun first => absurd (of_decide_eq_true first) below
  · rename_i other
    exact Bool.and_eq_false_imp.mpr fun first =>
      decide_eq_false fun second => other ⟨of_decide_eq_true first, second⟩

theorem toUpper_of_isLower_eq_false {c : Char} (upper : c.isLower = false) : c.toUpper = c := by
  unfold Char.toUpper
  refine dif_neg fun ⟨first, second⟩ => Bool.false_ne_true (upper.symm.trans ?_)
  exact Bool.and_eq_true_iff.mpr ⟨decide_eq_true first, decide_eq_true second⟩

@[ext]
structure Word (α : Type) where
  letter : Char
  value : α
  upper : letter.isLower = false
  deriving DecidableEq, Repr

namespace Word

variable {α : Type}

def of (letter : Char) (value : α) : Word α := ⟨letter.toUpper, value, isLower_toUpper letter⟩

theorem of_letter_value (w : Word α) : of w.letter w.value = w :=
  Word.ext (toUpper_of_isLower_eq_false w.upper) rfl

/-- Reads `letter numeral`. The numeral has no exponent, and its value is finite. -/
def ofPiece? [Scalar α] : List Char → Option (Word α)
  | [] => none
  | letter :: numeral =>
    if letter.isAlpha then
      (Decimal.plain? numeral).bind fun d =>
        let value : α := d.toScalar
        if Scalar.isFinite value then some (of letter value) else none
    else none

/-- The value of the last word with the given letter. -/
def last? (letter : Char) (words : List (Word α)) : Option α :=
  (words.filter (·.letter == letter)).getLast?.map value

/-- The axis that the word is for. -/
def axis? (w : Word α) : Option Axis := Axis.ofLetter? w.letter

theorem axis?_eq_some_iff {w : Word α} {axis : Axis} :
    w.axis? = some axis ↔ w.letter = axis.letter := by
  unfold axis?
  constructor
  · intro found
    unfold Axis.ofLetter? at found
    rw [toUpper_of_isLower_eq_false w.upper] at found
    have letter := List.find?_some found
    exact (eq_of_beq letter).symm
  · intro same
    rw [same, Axis.ofLetter?_letter]

end Word

end NumericalControl
