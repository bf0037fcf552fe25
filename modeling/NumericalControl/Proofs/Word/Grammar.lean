/-
  NumericalControl/Proofs/Word/Grammar.lean
  =========================================
  **How words are written.**  A word is a letter and a numeral, and a numeral is

      sign?  digits [ . [digits] ]       or       sign?  . digits

  `Decimal.Numeral` lists these forms together with the number that each denotes, and
  `Word.Written` adds the letter and asks for a finite value.  The readers accept what is
  written in this way, with the same meaning, and nothing else (`Decimal.plain?_eq_some_iff`,
  `Word.ofPiece?_eq_some_iff`).
-/
import Mathlib
import NumericalControl.Word

namespace NumericalControl

namespace Decimal

/-- The sign in front of a numeral, where there is one; `true` for a minus. -/
inductive Sign : Bool → List Char → Prop
  | none : Sign false []
  | plus : Sign false ['+']
  | minus : Sign true ['-']

def Digital (cs : List Char) : Prop := ∀ c ∈ cs, c.isDigit = true

/-- A numeral and the number that it denotes. -/
inductive Numeral : List Char → Decimal → Prop
  | whole {negative : Bool} {sign digits : List Char} (signed : Sign negative sign)
      (digital : Digital digits) (nonempty : digits ≠ []) :
      Numeral (sign ++ digits) ⟨negative, valueOfDigits digits, 0⟩
  /-- With a point, which may stand in front of the digits or behind them. -/
  | fraction {negative : Bool} {sign whole fraction : List Char} (signed : Sign negative sign)
      (front : Digital whole) (behind : Digital fraction) (nonempty : whole ≠ [] ∨ fraction ≠ []) :
      Numeral (sign ++ (whole ++ '.' :: fraction))
        ⟨negative, valueOfDigits (whole ++ fraction), -fraction.length⟩

/-! ### Signs -/

theorem exists_sign (cs : List Char) :
    ∃ sign, Sign (splitSign cs).1 sign ∧ cs = sign ++ (splitSign cs).2 := by
  unfold splitSign
  split
  · exact ⟨_, .minus, rfl⟩
  · exact ⟨_, .plus, rfl⟩
  · exact ⟨_, .none, rfl⟩

theorem splitSign_append {negative : Bool} {sign rest : List Char} (signed : Sign negative sign)
    (unsigned : ∀ c ∈ rest.head?, c ≠ '-' ∧ c ≠ '+') :
    splitSign (sign ++ rest) = (negative, rest) := by
  cases signed with
  | none =>
    rw [List.nil_append]
    unfold splitSign
    split
    · simp at unsigned
    · simp at unsigned
    · rfl
  | plus => rfl
  | minus => rfl

theorem not_sign_of_isDigit {c : Char} (h : c.isDigit = true) : c ≠ '-' ∧ c ≠ '+' := by
  constructor
  · rintro rfl
    simp at h
  · rintro rfl
    simp at h

/-! ### Digits and the point -/

theorem unsigned?_of_digital {digits : List Char} (negative : Bool) (digital : Digital digits)
    (nonempty : digits ≠ []) :
    unsigned? negative digits = some ⟨negative, valueOfDigits digits, 0⟩ := by
  have whole : digits.takeWhile Char.isDigit = digits := List.takeWhile_eq_self_iff.mpr digital
  have rest : digits.dropWhile Char.isDigit = [] := List.dropWhile_eq_nil_iff.mpr digital
  simp [unsigned?, whole, rest, nonempty]

theorem unsigned?_of_fraction {whole fraction : List Char} (negative : Bool)
    (front : Digital whole) (behind : Digital fraction) (nonempty : whole ≠ [] ∨ fraction ≠ []) :
    unsigned? negative (whole ++ '.' :: fraction) =
      some ⟨negative, valueOfDigits (whole ++ fraction), -fraction.length⟩ := by
  have digits : (whole ++ '.' :: fraction).takeWhile Char.isDigit = whole := by
    rw [List.takeWhile_append_of_pos front]
    simp
  have rest : (whole ++ '.' :: fraction).dropWhile Char.isDigit = '.' :: fraction := by
    rw [List.dropWhile_append_of_pos front]
    simp
  have all : fraction.all Char.isDigit = true := List.all_eq_true.mpr behind
  have given : (whole.isEmpty && fraction.isEmpty) = false := by
    rcases nonempty with before | after
    · simp [before]
    · simp [after]
  simp [unsigned?, digits, rest, all, given]

theorem of_unsigned? {negative : Bool} {cs : List Char} {d : Decimal}
    (h : unsigned? negative cs = some d) :
    (Digital cs ∧ cs ≠ [] ∧ d = ⟨negative, valueOfDigits cs, 0⟩) ∨
      ∃ whole fraction, cs = whole ++ '.' :: fraction ∧ Digital whole ∧ Digital fraction ∧
        (whole ≠ [] ∨ fraction ≠ []) ∧
        d = ⟨negative, valueOfDigits (whole ++ fraction), -fraction.length⟩ := by
  have parts : cs.takeWhile Char.isDigit ++ cs.dropWhile Char.isDigit = cs :=
    List.takeWhile_append_dropWhile
  have front : Digital (cs.takeWhile Char.isDigit) := fun c mem => List.mem_takeWhile_imp mem
  unfold unsigned? at h
  dsimp only at h
  generalize cs.takeWhile Char.isDigit = whole at parts front h
  split at h
  · rename_i rest
    rw [rest, List.append_nil] at parts
    subst parts
    split at h
    · cases h
    · rename_i nonempty
      obtain rfl := Option.some.inj h
      exact .inl ⟨front, by simpa using nonempty, rfl⟩
  · rename_i fraction rest
    rw [rest] at parts
    split at h
    · rename_i digits
      obtain rfl := Option.some.inj h
      rw [Bool.and_eq_true, List.all_eq_true] at digits
      refine .inr ⟨whole, fraction, parts.symm, front, digits.1, ?_, rfl⟩
      simpa [Classical.or_iff_not_imp_left] using digits.2
    · cases h
  · cases h

/-- **The reader accepts numerals and nothing else.** -/
theorem plain?_eq_some_iff {cs : List Char} {d : Decimal} :
    plain? cs = some d ↔ Numeral cs d := by
  constructor
  · intro h
    obtain ⟨sign, signed, split⟩ := exists_sign cs
    unfold plain? at h
    generalize splitSign cs = parts at signed split h
    rcases of_unsigned? h with
      ⟨digital, nonempty, rfl⟩ | ⟨whole, fraction, rest, front, behind, nonempty, rfl⟩
    · rw [split]
      exact .whole signed digital nonempty
    · rw [split, rest]
      exact .fraction signed front behind nonempty
  · intro h
    unfold plain?
    cases h with
    | whole signed digital nonempty =>
      rw [splitSign_append signed]
      · exact unsigned?_of_digital _ digital nonempty
      · intro c first
        exact not_sign_of_isDigit (digital c (List.mem_of_mem_head? first))
    | @fraction _ _ whole fraction signed front behind nonempty =>
      rw [splitSign_append signed]
      · exact unsigned?_of_fraction _ front behind nonempty
      · intro c first
        rcases whole with _ | ⟨digit, whole⟩
        · obtain rfl : '.' = c := by simpa using first
          decide
        · obtain rfl : digit = c := by simpa using first
          exact not_sign_of_isDigit (front digit List.mem_cons_self)

/-- Nothing but digits, a point and a sign stands in a numeral. -/
theorem Numeral.mem {cs : List Char} {d : Decimal} (h : Numeral cs d) {c : Char} (mem : c ∈ cs) :
    c.isDigit = true ∨ c = '.' ∨ c = '+' ∨ c = '-' := by
  have ofSign : ∀ {negative : Bool} {sign : List Char}, Sign negative sign → c ∈ sign →
      c = '+' ∨ c = '-' := by
    intro negative sign signed mem
    cases signed <;> simp_all
  cases h with
  | whole signed digital _ =>
    rcases List.mem_append.mp mem with first | second
    · exact .inr (.inr (ofSign signed first))
    · exact .inl (digital c second)
  | fraction signed front behind _ =>
    rcases List.mem_append.mp mem with first | second
    · exact .inr (.inr (ofSign signed first))
    · rcases List.mem_append.mp second with digit | rest
      · exact .inl (front c digit)
      · rcases List.mem_cons.mp rest with point | digit
        · exact .inr (.inl point)
        · exact .inl (behind c digit)

end Decimal

/-! ### Words -/

namespace Word

variable {α : Type} [Scalar α]

/-- A word as it is written: a letter in front of a numeral that has a finite value. -/
inductive Written : List Char → Word α → Prop
  | word {letter : Char} {numeral : List Char} {d : Decimal} (alpha : letter.isAlpha = true)
      (h : Decimal.Numeral numeral d) (finite : Scalar.isFinite (d.toScalar : α) = true) :
      Written (letter :: numeral) (of letter d.toScalar)

/-- **A piece reads as a word exactly when it is written as one.** -/
theorem ofPiece?_eq_some_iff {piece : List Char} {w : Word α} :
    ofPiece? piece = some w ↔ Written piece w := by
  constructor
  · intro h
    unfold ofPiece? at h
    split at h
    · cases h
    · split at h
      · rename_i alpha
        obtain ⟨d, numeral, value⟩ := Option.bind_eq_some_iff.mp h
        dsimp only at value
        split at value
        · rename_i finite
          obtain rfl := Option.some.inj value
          exact .word alpha (Decimal.plain?_eq_some_iff.mp numeral) finite
        · cases value
      · cases h
  · intro h
    cases h with
    | word alpha h finite =>
      simp [ofPiece?, alpha, Decimal.plain?_eq_some_iff.mpr h, finite]

theorem Written.ne_nil {piece : List Char} {w : Word α} (h : Written piece w) : piece ≠ [] := by
  cases h with
  | word => exact List.cons_ne_nil _ _

/-- The letter of a word is a capital one, and its value is finite. -/
theorem Written.upper_finite {piece : List Char} {w : Word α} (h : Written piece w) :
    w.letter.isUpper = true ∧ Scalar.isFinite w.value = true := by
  cases h with
  | word alpha _ finite => exact ⟨(Char.isUpper_toUpper_eq_isAlpha _).trans alpha, finite⟩

end Word

end NumericalControl
