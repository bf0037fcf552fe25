/-
  NumericalControl/Proofs/Word/Packing.lean
  =========================================
  **Packed words.**  Words may stand one directly behind the other: their text is then a
  single token, and it is cut in front of every letter.  Since a written word has a letter
  in front and nowhere else, the cuts fall between the words (`Line.pieces_packed`).  Only
  the letter E directly behind a digit or a point is not cut off, so no later word may
  begin with it.

  Packed words and the same words with blanks between them are therefore read alike
  (`Line.read_packed`).
-/
import NumericalControl.Proofs.Word.Reading

namespace NumericalControl.Line

variable {α : Type} [Scalar α]

/-- Each later one of the pieces starts a piece, whatever stands in front of it. -/
theorem isChain_startsPiece {ps : List (List Char)} (nonempty : [] ∉ ps)
    (starts : ∀ piece ∈ ps.tail, ∀ b ∈ piece.head?, ∀ a, startsPiece a b = true) :
    ps.IsChain fun x y => ∃ hx hy, (!startsPiece (x.getLast hx) (y.head hy)) = false := by
  induction ps with
  | nil => exact .nil
  | cons piece rest ih =>
    have here : piece ≠ [] := fun empty => nonempty (empty ▸ List.mem_cons_self)
    have later : [] ∉ rest := fun mem => nonempty (List.mem_cons_of_mem _ mem)
    refine List.isChain_cons.mpr
      ⟨?_, ih later fun next mem => starts next (List.mem_of_mem_tail mem)⟩
    intro next first
    have mem : next ∈ rest := List.mem_of_mem_head? first
    have given : next ≠ [] := fun empty => later (empty ▸ mem)
    refine ⟨here, given, ?_⟩
    rw [starts next mem _ (List.head_mem_head? given), Bool.not_true]

section

variable {accepted : List (List Char × Word α)}
    (written : ∀ p ∈ accepted, Word.Written p.1 p.2)
    (unjoined : ∀ p ∈ accepted.tail, p.1.head? ≠ some 'e' ∧ p.1.head? ≠ some 'E')
include written unjoined

/-- **The text of packed words is cut into these words.** -/
theorem pieces_packed (nonempty : accepted ≠ []) :
    pieces (accepted.map Prod.fst).flatten = accepted.map Prod.fst := by
  have given : [] ∉ accepted.map Prod.fst := by
    intro mem
    obtain ⟨p, hp, empty⟩ := List.mem_map.mp mem
    exact (written p hp).ne_nil empty
  have chains : ∀ piece ∈ accepted.map Prod.fst,
      piece.IsChain fun a b => (!startsPiece a b) = true := by
    intro piece mem
    obtain ⟨p, hp, rfl⟩ := List.mem_map.mp mem
    exact isChain_of_written (written p hp)
  have starts : ∀ piece ∈ (accepted.map Prod.fst).tail, ∀ b ∈ piece.head?, ∀ a,
      startsPiece a b = true := by
    intro piece mem b first a
    rw [← List.map_tail] at mem
    obtain ⟨p, hp, rfl⟩ := List.mem_map.mp mem
    obtain ⟨lower, upper⟩ := unjoined p hp
    have alpha := head_of_written (written p (List.mem_of_mem_tail hp))
    rw [Option.mem_def.mp first] at lower upper alpha
    refine startsPiece_iff.mpr ⟨alpha, ?_⟩
    rintro ⟨rfl | rfl, -⟩
    · exact lower rfl
    · exact upper rfl
  have letter : (accepted.map Prod.fst).flatten.head?.any Char.isAlpha = true := by
    obtain ⟨p, rest, rfl⟩ := List.exists_cons_of_ne_nil nonempty
    have first := written p List.mem_cons_self
    rw [List.map_cons, List.flatten_cons, List.head?_append_of_ne_nil _ first.ne_nil]
    exact head_of_written first
  rw [pieces, if_pos letter]
  exact List.splitBy_flatten given chains (isChain_startsPiece given starts)

/-- **Packed and spaced words are read alike**: as one word for each piece, in their order,
    with nothing rejected. -/
theorem read_packed {spaced : List Char} (h : Text.Spaced (accepted.map Prod.fst) spaced) :
    (read (String.ofList (accepted.map Prod.fst).flatten) : Line α) = read (String.ofList spaced) ∧
      (read (String.ofList spaced) : Line α) = ⟨accepted.map Prod.snd, []⟩ := by
  let words := accepted.map Prod.fst
  have plain : ∀ piece ∈ words, Text.Visible piece ∧ ∀ c ∈ piece, Plain c := by
    intro piece mem
    obtain ⟨p, hp, rfl⟩ := List.mem_map.mp mem
    exact ⟨visible_of_written (written p hp), fun c hc => (plain_of_written (written p hp) hc).2⟩
  have one : (Text.tokens words.flatten).flatMap pieces = words := by
    by_cases empty : accepted = []
    · simp [words, empty, Text.tokens]
    · -- the whole text is a single token
      have visible : Text.Visible words.flatten := by
        refine ⟨?_, ?_⟩
        · obtain ⟨p, rest, rfl⟩ := List.exists_cons_of_ne_nil empty
          simp [words, (written p List.mem_cons_self).ne_nil]
        · intro c mem
          obtain ⟨piece, hp, hc⟩ := List.mem_flatten.mp mem
          exact (plain piece hp).1.2 c hc
      rw [Text.tokens_of_visible visible, List.flatMap_singleton]
      exact pieces_packed written unjoined empty
  have packed : (read (String.ofList words.flatten) : Line α) = ⟨accepted.map Prod.snd, []⟩ := by
    rw [read_of_plain, one]
    · exact ofPieces_of_written written
    · intro c mem
      obtain ⟨piece, hp, hc⟩ := List.mem_flatten.mp mem
      exact (plain piece hp).2 c hc
  have separate := read_spaced written h
  exact ⟨packed.trans separate.symm, separate⟩

end

/-- An E in front of all words, a sign, points on either side of the digits, and a line feed
    and a wide space among the blanks. -/
theorem read_packed_points :
    let accepted : List (List Char × Word Float) :=
      [(['e', '+', '7', '.'], .of 'E' 7.0), (['X', '-', '.', '5'], .of 'X' (-0.5)),
        (['y', '0', '0', '7'], .of 'Y' 7.0), (['G', '1', '.', '2'], .of 'G' 1.2)]
    let packed := (accepted.map Prod.fst).flatten
    let spaced := ['e', '+', '7', '.'] ++ (['\t'] ++ (['X', '-', '.', '5'] ++ ([' ', '\n'] ++
      (['y', '0', '0', '7'] ++ (['\u2003'] ++ ['G', '1', '.', '2'])))))
    (∀ p ∈ accepted, Word.Written p.1 p.2) ∧ Text.Spaced (accepted.map Prod.fst) spaced ∧
      (read (String.ofList packed) : Line Float) = read (String.ofList spaced) ∧
      (read (String.ofList spaced) : Line Float) =
        ⟨[.of 'E' 7.0, .of 'X' (-0.5), .of 'Y' 7.0, .of 'G' 1.2], []⟩ := by
  intro accepted packed spaced
  have readable : ∀ p ∈ accepted, Word.ofPiece? p.1 = some p.2 := by decide +kernel
  have written : ∀ p ∈ accepted, Word.Written p.1 p.2 :=
    fun p mem => Word.ofPiece?_eq_some_iff.mp (readable p mem)
  have blank : ∀ gap ∈ [['\t'], [' ', '\n'], ['\u2003']], Text.Blanks gap := by
    simp [Text.Blanks, Text.isBlank, Text.blankRanges]
  have between : Text.Spaced (accepted.map Prod.fst) spaced := by
    refine .next (by simp) (blank ['\t'] (by simp)) ?_
    refine .next (by simp) (blank [' ', '\n'] (by simp)) ?_
    exact .next (by simp) (blank ['\u2003'] (by simp)) (.last _)
  exact ⟨written, between, read_packed written (by decide) between⟩

/-- An E that is packed behind a digit is not cut off, and the two words are lost. -/
example : (read "X1E2" : Line Float) = ⟨[], ["X1E2"]⟩ := by decide +kernel

end NumericalControl.Line
