/-
  NumericalControl/Proofs/Word/Reading.lean
  =========================================
  **Reading a line loses nothing.**  The text of a line, without its comments, is parted
  into tokens, each token is cut into pieces, and each piece is read as a word or rejected.
  Every step is described by what it gives, not by how: `Text.Parted` for the tokens,
  `Line.CutUp` for the pieces of a token, which come together to the token again and are cut
  in front of letters only, and `Line.Sifted` for the words and the rejected pieces, which
  come in the order of the pieces, each piece once.

  What was read as words is read again as these words, whatever blanks stand between them
  (`Line.read_spaced`): in a piece that is written as a word only the first character is a
  letter, so it is never cut, and it holds no blank and nothing that opens or ends a comment.
-/
import Mathlib.Data.List.Forall2
import NumericalControl.Proofs.Text.Tokens
import NumericalControl.Proofs.Word.Grammar
import NumericalControl.Scalar.Binary64
import NumericalControl.Word.Line

namespace NumericalControl

namespace Line

/-! ### The pieces of a token -/

/-- There is a cut in front of the character at a place. -/
def CutAt (pieces : List (List Char)) (n : Nat) : Prop :=
  ∃ front back, pieces = front ++ back ∧ front.flatten.length = n

/-- The pieces of a token. -/
structure CutUp (token : List Char) (pieces : List (List Char)) : Prop where
  flatten : pieces.flatten = token
  nonempty : [] ∉ pieces
  whole : token.head?.any Char.isAlpha = false → pieces = [token]
  /-- In front of letters, but not of an E directly behind a digit or a point. -/
  cut : ∀ (n : Nat) (a b : Char), token.head?.any Char.isAlpha = true →
    token[n]? = some a → token[n + 1]? = some b →
    (CutAt pieces (n + 1) ↔
      b.isAlpha = true ∧ ¬((b = 'e' ∨ b = 'E') ∧ (a.isDigit = true ∨ a = '.')))

theorem cutAt_cons {run : List Char} {rest : List (List Char)} {n : Nat} :
    CutAt (run :: rest) (n + 1) ↔ ∃ m, run.length + m = n + 1 ∧ CutAt rest m := by
  constructor
  · rintro ⟨front, back, split, length⟩
    rcases front with _ | ⟨first, front⟩
    · simp at length
    · obtain ⟨rfl, rfl⟩ := List.cons.inj split
      exact ⟨front.flatten.length, by simpa using length, front, back, rfl, rfl⟩
  · rintro ⟨m, length, front, back, rfl, rfl⟩
    exact ⟨run :: front, back, rfl, by simpa using length⟩

/-- **Runs of a relation are cut where it does not hold.** -/
theorem cutAt_iff {r : Char → Char → Bool} {runs : List (List Char)} (nonempty : [] ∉ runs)
    (chains : ∀ run ∈ runs, run.IsChain fun a b => r a b = true)
    (changes : runs.IsChain fun x y => ∃ hx hy, r (x.getLast hx) (y.head hy) = false)
    {n : Nat} {a b : Char} (ha : runs.flatten[n]? = some a)
    (hb : runs.flatten[n + 1]? = some b) : CutAt runs (n + 1) ↔ r a b = false := by
  induction runs generalizing n with
  | nil => simp at ha
  | cons run rest ih =>
    have chain := chains run List.mem_cons_self
    rw [List.flatten_cons] at ha hb
    rw [cutAt_cons]
    rcases Nat.lt_trichotomy (n + 1) run.length with inside | last | behind
    · -- both characters stand in the first run
      rw [List.getElem?_append_left (by omega), List.getElem?_eq_getElem (by omega)] at ha
      rw [List.getElem?_append_left inside, List.getElem?_eq_getElem inside] at hb
      have related := List.isChain_iff_getElem.mp chain n inside
      rw [Option.some.inj ha, Option.some.inj hb] at related
      refine iff_of_false ?_ (by simp [related])
      rintro ⟨m, length, -⟩
      omega
    · -- the second one begins the next run
      rw [List.getElem?_append_right (by omega), last, Nat.sub_self] at hb
      rcases rest with _ | ⟨next, rest⟩
      · simp at hb
      · obtain ⟨hrun, hnext, differ⟩ := (List.isChain_cons_cons.mp changes).1
        have end_eq : run.getLast hrun = a := by
          rw [List.getElem?_append_left (by omega), List.getElem?_eq_getElem (by omega)] at ha
          rw [List.getLast_eq_getElem]
          simpa [← last] using ha
        have head_eq : next.head hnext = b := by
          rw [List.flatten_cons, ← List.head?_eq_getElem?, List.head?_append_of_ne_nil _ hnext,
            List.head?_eq_some_head hnext] at hb
          exact Option.some.inj hb
        rw [end_eq, head_eq] at differ
        exact iff_of_true ⟨0, by omega, [], _, rfl, rfl⟩ differ
    · obtain ⟨k, rfl⟩ : ∃ k, n = run.length + k := ⟨n - run.length, by omega⟩
      rw [List.getElem?_append_right (by omega), Nat.add_sub_cancel_left] at ha
      rw [List.getElem?_append_right (by omega), Nat.add_assoc, Nat.add_sub_cancel_left] at hb
      have later := ih (fun mem => nonempty (List.mem_cons_of_mem _ mem))
        (fun x mem => chains x (List.mem_cons_of_mem _ mem)) changes.tail ha hb
      rw [← later]
      constructor
      · rintro ⟨m, length, cut⟩
        obtain rfl : m = k + 1 := by omega
        exact cut
      · intro cut
        exact ⟨k + 1, by omega, cut⟩

theorem startsPiece_iff {a b : Char} :
    startsPiece a b = true ↔
      b.isAlpha = true ∧ ¬((b = 'e' ∨ b = 'E') ∧ (a.isDigit = true ∨ a = '.')) := by
  simp only [startsPiece, Bool.and_eq_true, Bool.not_eq_true', ← Bool.not_eq_true, Bool.or_eq_true,
    beq_iff_eq]

theorem cutUp_pieces {token : List Char} (nonempty : token ≠ []) : CutUp token (pieces token) := by
  unfold pieces
  split
  · rename_i letter
    let joined : Char → Char → Bool := fun a b => !startsPiece a b
    refine ⟨List.flatten_splitBy joined token, List.nil_notMem_splitBy joined token, ?_, ?_⟩
    · simp [letter]
    · intro n a b _ ha hb
      rw [← List.flatten_splitBy joined token] at ha hb
      have cut := cutAt_iff (List.nil_notMem_splitBy joined token)
        (fun _ => List.isChain_of_mem_splitBy) (List.isChain_getLast_head_splitBy joined token)
        ha hb
      rw [cut, ← startsPiece_iff]
      simp [joined]
  · rename_i other
    refine ⟨by simp, by simpa using nonempty.symm, fun _ => rfl, ?_⟩
    intro n a b letter
    exact absurd letter other

/-! ### Words and rejected pieces -/

section

variable {α : Type} [Scalar α]

/-- Each piece in its turn is read as a word or rejected as it stands. -/
inductive Sifted : List (List Char) → List (List Char × Word α) → List String → Prop
  | nil : Sifted [] [] []
  | word {piece : List Char} {w : Word α} {pieces : List (List Char)}
      {accepted : List (List Char × Word α)} {rejected : List String}
      (written : Word.Written piece w) (h : Sifted pieces accepted rejected) :
      Sifted (piece :: pieces) ((piece, w) :: accepted) rejected
  | rejected {piece : List Char} {pieces : List (List Char)}
      {accepted : List (List Char × Word α)} {rejected : List String}
      (unwritten : ∀ w : Word α, ¬Word.Written piece w) (h : Sifted pieces accepted rejected) :
      Sifted (piece :: pieces) accepted (String.ofList piece :: rejected)

theorem Sifted.written {pieces : List (List Char)} {accepted : List (List Char × Word α)}
    {rejected : List String} (h : Sifted pieces accepted rejected) :
    ∀ p ∈ accepted, Word.Written p.1 p.2 := by
  induction h with
  | nil => simp
  | word written _ ih =>
    intro p mem
    rcases List.mem_cons.mp mem with rfl | later
    · exact written
    · exact ih p later
  | rejected _ _ ih => exact ih

theorem exists_sifted (ps : List (List Char)) :
    ∃ accepted : List (List Char × Word α), Sifted ps accepted (ofPieces (α := α) ps).rejected ∧
      (ofPieces (α := α) ps).words = accepted.map Prod.snd := by
  induction ps with
  | nil => exact ⟨[], .nil, rfl⟩
  | cons piece rest ih =>
    obtain ⟨accepted, sifted, words⟩ := ih
    rcases read : (Word.ofPiece? piece : Option (Word α)) with _ | w
    · refine ⟨accepted, ?_, ?_⟩
      · have unwritten : ∀ w : Word α, ¬Word.Written piece w := by
          intro w written
          rw [← Word.ofPiece?_eq_some_iff, read] at written
          cases written
        simpa [ofPieces, read] using Sifted.rejected unwritten sifted
      · simpa [ofPieces, read] using words
    · refine ⟨(piece, w) :: accepted, ?_, ?_⟩
      · have written := Word.ofPiece?_eq_some_iff.mp read
        simpa [ofPieces, read] using Sifted.word written sifted
      · simpa [ofPieces, read] using words

/-! ### Reading words again -/

/-- The character neither begins nor ends a comment, nor marks an end of the program. -/
def Plain (c : Char) : Prop := c ≠ '(' ∧ c ≠ ')' ∧ c ≠ ';' ∧ c ≠ '%'

theorem strip_eq_self {cs : List Char} (h : ∀ c ∈ cs, Plain c) : Comment.strip 0 cs = cs := by
  induction cs with
  | nil => rfl
  | cons c rest ih =>
    obtain ⟨opens, closes, ends, -⟩ := h c List.mem_cons_self
    have later := ih fun d mem => h d (List.mem_cons_of_mem _ mem)
    unfold Comment.strip
    split <;> simp_all

theorem isAlpha_iff {c : Char} : c.isAlpha = true ↔
    (65 ≤ c.toNat ∧ c.toNat ≤ 90) ∨ (97 ≤ c.toNat ∧ c.toNat ≤ 122) := by
  simp [Char.isAlpha, Char.isUpper, Char.isLower, UInt32.le_iff_toNat_le]

theorem not_alpha_of_numeral {numeral : List Char} {d : Decimal} (h : Decimal.Numeral numeral d)
    {c : Char} (mem : c ∈ numeral) : c.isAlpha = false := by
  rcases h.mem mem with digit | rfl | rfl | rfl
  · have code : 48 ≤ c.toNat ∧ c.toNat ≤ 57 := Char.isDigit_iff_toNat.mp digit
    rw [Bool.eq_false_iff, ne_eq, isAlpha_iff]
    omega
  all_goals decide

theorem code_of_written {piece : List Char} {w : Word α} (h : Word.Written piece w) {c : Char}
    (mem : c ∈ piece) : 43 ≤ c.toNat ∧ c.toNat ≤ 122 ∧ c.toNat ≠ 59 := by
  cases h with
  | word alpha numeral _ =>
    rcases List.mem_cons.mp mem with rfl | later
    · have code := isAlpha_iff.mp alpha
      omega
    · rcases numeral.mem later with digit | rfl | rfl | rfl
      · have code : 48 ≤ c.toNat ∧ c.toNat ≤ 57 := Char.isDigit_iff_toNat.mp digit
        omega
      all_goals decide

theorem plain_of_written {piece : List Char} {w : Word α} (h : Word.Written piece w) {c : Char}
    (mem : c ∈ piece) : Text.isBlank c = false ∧ Plain c := by
  obtain ⟨above, below, notEnd⟩ := code_of_written h mem
  refine ⟨?_, ?_, ?_, ?_, ?_⟩
  · simp [Text.isBlank, Text.blankRanges]
    omega
  all_goals
    rintro rfl
    simp at above below notEnd

theorem visible_of_written {piece : List Char} {w : Word α} (h : Word.Written piece w) :
    Text.Visible piece :=
  ⟨h.ne_nil, fun _ mem => (plain_of_written h mem).1⟩

/-- Nothing but the first character of a written word starts a piece. -/
theorem isChain_of_written {piece : List Char} {w : Word α} (h : Word.Written piece w) :
    piece.IsChain fun a b => (!startsPiece a b) = true := by
  cases h with
  | @word letter numeral d _ h _ =>
    rw [List.isChain_iff_getElem]
    intro i inside
    have digit : (letter :: numeral)[i + 1].isAlpha = false :=
      not_alpha_of_numeral h (List.getElem_mem _)
    rw [startsPiece, digit, Bool.false_and, Bool.not_false]

theorem head_of_written {piece : List Char} {w : Word α} (h : Word.Written piece w) :
    piece.head?.any Char.isAlpha = true := by
  cases h with
  | word alpha => exact alpha

theorem pieces_of_written {piece : List Char} {w : Word α} (h : Word.Written piece w) :
    pieces piece = [piece] := by
  rw [pieces, if_pos (head_of_written h)]
  exact List.splitBy_of_isChain h.ne_nil (isChain_of_written h)

theorem ofPieces_of_written {accepted : List (List Char × Word α)}
    (written : ∀ p ∈ accepted, Word.Written p.1 p.2) :
    ofPieces (accepted.map Prod.fst) = ⟨accepted.map Prod.snd, []⟩ := by
  induction accepted with
  | nil => rfl
  | cons p rest ih =>
    have here := Word.ofPiece?_eq_some_iff.mpr (written p List.mem_cons_self)
    have later := ih fun q mem => written q (List.mem_cons_of_mem _ mem)
    simp only [ofPieces, Line.mk.injEq] at later
    simp [ofPieces, here, later]

theorem plain_of_isBlank {c : Char} (blank : Text.isBlank c = true) : Plain c := by
  refine ⟨?_, ?_, ?_, ?_⟩
  all_goals
    rintro rfl
    simp [Text.isBlank, Text.blankRanges] at blank

theorem read_of_plain {cs : List Char} (plain : ∀ c ∈ cs, Plain c) :
    (read (String.ofList cs) : Line α) = ofPieces ((Text.tokens cs).flatMap pieces) := by
  have unmarked : (Text.trimLeft cs).head? ≠ some '%' := by
    intro first
    have mem := (List.dropWhile_sublist _).subset (List.mem_of_mem_head? first)
    exact (plain '%' mem).2.2.2 rfl
  rw [read, String.toList_ofList, strip_eq_self plain, allPieces, if_neg unmarked]

/-- **Words with blanks between each two are read as these words.** -/
theorem read_spaced {accepted : List (List Char × Word α)}
    (written : ∀ p ∈ accepted, Word.Written p.1 p.2) {text : List Char}
    (spaced : Text.Spaced (accepted.map Prod.fst) text) :
    read (String.ofList text) = ⟨accepted.map Prod.snd, []⟩ := by
  let words := accepted.map Prod.fst
  have visible : ∀ piece ∈ words, Text.Visible piece := by
    intro piece mem
    obtain ⟨p, hp, rfl⟩ := List.mem_map.mp mem
    exact visible_of_written (written p hp)
  have plain : ∀ c ∈ text, Plain c := by
    intro c mem
    rcases spaced.mem mem with blank | ⟨piece, hp, hc⟩
    · exact plain_of_isBlank blank
    · obtain ⟨p, mem, rfl⟩ := List.mem_map.mp hp
      exact (plain_of_written (written p mem) hc).2
  have cut : words.flatMap pieces = words := by
    have single : ∀ piece ∈ words, pieces piece = [piece] := by
      intro piece mem
      obtain ⟨p, hp, rfl⟩ := List.mem_map.mp mem
      exact pieces_of_written (written p hp)
    rw [List.flatMap_congr single, List.flatMap_singleton']
  rw [read_of_plain plain, (spaced.parted visible).tokens_eq, cut]
  exact ofPieces_of_written written

theorem read_intercalate {accepted : List (List Char × Word α)}
    (written : ∀ p ∈ accepted, Word.Written p.1 p.2) :
    read (String.ofList ([' '].intercalate (accepted.map Prod.fst))) =
      ⟨accepted.map Prod.snd, []⟩ :=
  read_spaced written (Text.spaced_intercalate _)

/-! ### Lines -/

/-- What is read from a text, with all that stands between the two: the tokens, the pieces
    of each token, and the pieces that became words. -/
def ReadExactly (code : List Char) (line : Line α) : Prop :=
  ∃ (tokens : List (List Char)) (cuts : List (List (List Char)))
    (accepted : List (List Char × Word α)),
    Text.Parted code tokens ∧ List.Forall₂ CutUp tokens cuts ∧
    Sifted cuts.flatten accepted line.rejected ∧ line.words = accepted.map Prod.snd ∧
    (∀ w ∈ line.words, w.letter.isUpper = true ∧ Scalar.isFinite w.value = true) ∧
    read (String.ofList ([' '].intercalate (accepted.map Prod.fst))) = ⟨line.words, []⟩

/-- **Reading a line accepts exactly the written words and loses nothing**, unless the line
    marks an end of the program. -/
theorem readExactly_read (text : String)
    (unmarked : (Text.trimLeft (Comment.strip 0 text.toList)).head? ≠ some '%') :
    ReadExactly (Comment.strip 0 text.toList) (read text : Line α) := by
  have parted := Text.parted_tokens (Comment.strip 0 text.toList)
  generalize ht : Text.tokens (Comment.strip 0 text.toList) = tokens at parted
  have read_eq : (read text : Line α) = ofPieces (tokens.map pieces).flatten := by
    rw [read, allPieces, if_neg unmarked, ht, List.flatMap_def]
  obtain ⟨accepted, sifted, words⟩ := exists_sifted (α := α) (tokens.map pieces).flatten
  rw [← read_eq] at sifted words
  refine ⟨tokens, tokens.map pieces, accepted, parted, ?_, sifted, words, ?_, ?_⟩
  · rw [List.forall₂_map_right_iff, List.forall₂_same]
    intro token mem
    exact cutUp_pieces (parted.visible token mem).1
  · intro w mem
    rw [words] at mem
    obtain ⟨p, hp, rfl⟩ := List.mem_map.mp mem
    exact (sifted.written p hp).upper_finite
  · rw [words]
    exact read_intercalate sifted.written

/-- A comment between packed words, exponents, a letter by itself and a token without one. -/
theorem readExactly_packed :
    let text := "g1x-.5(c;d)Y3.e1 #5 Xe+7.F1E3e2"
    (Text.trimLeft (Comment.strip 0 text.toList)).head? ≠ some '%' ∧
      ReadExactly (Comment.strip 0 text.toList) (read text : Line Float) ∧
      (read text : Line Float) =
        ⟨[.of 'G' 1.0, .of 'X' (-0.5), .of 'E' 7.0], ["Y3.e1", "#5", "X", "F1E3e2"]⟩ := by
  intro text
  have unmarked : (Text.trimLeft (Comment.strip 0 text.toList)).head? ≠ some '%' := by
    decide +kernel
  exact ⟨unmarked, readExactly_read text unmarked, by decide +kernel⟩

end

end Line

end NumericalControl
