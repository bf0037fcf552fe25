/-
  NumericalControl/Proofs/Scalar/Reals.lean
  =========================================
  **The real numbers as scalars.**  Over them nothing is rounded and every value is
  defined, so toolpaths can be reasoned about in exact arithmetic.  They cannot be run;
  but words with whole numbers read as those numbers and name the codes of those numbers
  (`ofPiece?_whole`, `role_gCode`), which is enough to work out a program by hand.
-/
import Mathlib.Analysis.SpecialFunctions.Complex.Arg
import NumericalControl.Machine
import NumericalControl.Modal.Code
import NumericalControl.Proofs.Scalar.Order

namespace NumericalControl

noncomputable instance : Scalar ℝ where
  decidableLt := fun a b => Real.decidableLT a b
  decidableLe := fun a b => Real.decidableLE a b
  isFinite := fun _ => true
  abs := fun a => |a|
  sign := fun a => if a < 0 then -1 else 1
  sqrt := Real.sqrt
  hypot := fun a b => Real.sqrt (a * a + b * b)
  sin := Real.sin
  cos := Real.cos
  arctan2 := fun y x => Complex.arg ⟨x, y⟩
  modulo := fun a b => a - b * ⌊a / b⌋
  turn := 2 * Real.pi
  ofNat := fun n => n
  floor := fun a => ⌊a⌋₊
  ceil := fun a => ⌈a⌉₊
  round := fun a => if a < 0 then -⌊1 / 2 - a⌋ else ⌊a + 1 / 2⌋

namespace Reals

theorem defined (a : ℝ) : ¬Scalar.IsNaN a := not_not.mpr (le_refl a)

instance : OrderedScalar ℝ where
  le_trans := le_trans
  le_total := fun _ _ => le_total _ _
  defined_left := fun _ => defined _
  defined_right := fun _ => defined _
  lt_iff := lt_iff_le_not_ge

theorem isPositive_iff {a : ℝ} : Scalar.isPositive a = true ↔ 0 < a := by
  unfold Scalar.isPositive
  rw [Bool.and_eq_true, decide_eq_true_iff]
  norm_num [Scalar.isFinite]

theorem check_ofRapidFeed {rapidFeed : ℝ} (h : 0 < rapidFeed) :
    (Parameters.ofRapidFeed rapidFeed).check = .ok () := by
  have feed : Scalar.isPositive rapidFeed = true := isPositive_iff.mpr h
  have radius : Scalar.isPositive (0.005 : ℝ) = true := isPositive_iff.mpr (by norm_num)
  have circle : Scalar.isPositive (1e-6 : ℝ) = true := isPositive_iff.mpr (by norm_num)
  unfold Parameters.check Parameters.fault? Parameters.ofRapidFeed
  dsimp only
  rw [feed, radius, circle]
  rfl

/-! ### Words with whole numbers -/

theorem round_natCast (n : Nat) : Scalar.round (n : ℝ) = n := by
  change (if (n : ℝ) < 0 then -((⌊1 / 2 - (n : ℝ)⌋ : Int) : ℝ) else (⌊(n : ℝ) + 1 / 2⌋ : Int)) = n
  rw [if_neg (not_lt.mpr (Nat.cast_nonneg n)), Int.floor_natCast_add]
  norm_num

theorem codeNumber?_natCast {n : Nat} (h : n ≤ registerLimit) : codeNumber? (n : ℝ) = some n := by
  have near : (0.0 : ℝ) ≤ n ∧ Scalar.abs ((n : ℝ) - n) < codeTolerance := by
    refine ⟨by norm_num, ?_⟩
    change |(n : ℝ) - n| < 1e-6
    norm_num
  have whole : Scalar.floor (n : ℝ) = n := Nat.floor_natCast n
  unfold codeNumber?
  dsimp only
  rw [round_natCast, if_pos near, whole, min_eq_left h]

theorem role_gCode {n : Nat} (h : n ≤ registerLimit) :
    Role.of (Word.of 'G' n : Word ℝ) = Role.ofGCode (some n) := by
  have letter : (Word.of 'G' n : Word ℝ).letter = 'G' := rfl
  unfold Role.of
  rw [if_pos letter, Word.of, codeNumber?_natCast h]

/-- A numeral without a fraction reads as its whole number. -/
theorem ofPiece?_whole {letter : Char} {digits : List Char} {n : Nat}
    (alpha : letter.isAlpha = true) (h : Decimal.plain? digits = some ⟨false, n, 0⟩) :
    Word.ofPiece? (letter :: digits) = some (Word.of letter (n : ℝ)) := by
  have value : (Decimal.toScalar ⟨false, n, 0⟩ : ℝ) = n := by
    change ((Rat.ofScientific n false 0 : ℚ) : ℝ) = n
    rw [Rat.ofScientific_false_def, Nat.pow_zero, Nat.mul_one]
    exact Rat.cast_natCast n
  unfold Word.ofPiece?
  dsimp only
  rw [if_pos alpha, h, Option.bind_some, value]
  exact if_pos rfl

end Reals

end NumericalControl
