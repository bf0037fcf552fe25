/-
  NumericalControl/Proofs/Text/Lines.lean
  =======================================
  **The ends of lines.**  Trimming takes the blanks off both ends of a text and leaves the
  rest (`exists_trim`), so blanks that are put around a text are trimmed off again
  (`trim_surrounded`).

  A carriage return in front of a line feed belongs to the end of the line.  One more is a
  character of the line; it is the last one, though, and a blank.  So a text in which every
  line feed has got a carriage return has as many lines as before, and they are the same but
  for blanks at their ends (`map_trim_lines_withReturns`).
-/
import NumericalControl.Proofs.Text.Tokens
import NumericalControl.Text.Lines

namespace NumericalControl.Text

/-! ### Trimmed text -/

theorem Blanks.reverse {gap : List Char} (h : Blanks gap) : Blanks gap.reverse :=
  fun c mem => h c (List.mem_reverse.mp mem)

theorem blanks_takeWhile (cs : List Char) : Blanks (cs.takeWhile isBlank) :=
  fun _ mem => List.mem_takeWhile_imp mem

/-- **What is trimmed off a text is blank.** -/
theorem exists_trim (cs : List Char) :
    ∃ front back, Blanks front ∧ Blanks back ∧ cs = front ++ (trim cs ++ back) := by
  let behind := (trimLeft cs).reverse
  refine ⟨cs.takeWhile isBlank, (behind.takeWhile isBlank).reverse, blanks_takeWhile cs,
    (blanks_takeWhile behind).reverse, ?_⟩
  have rest : trimLeft cs = trim cs ++ (behind.takeWhile isBlank).reverse := by
    calc trimLeft cs
      _ = behind.reverse := (List.reverse_reverse _).symm
      _ = (behind.takeWhile isBlank ++ trimLeft behind).reverse := by
        rw [trimLeft, List.takeWhile_append_dropWhile]
      _ = trim cs ++ (behind.takeWhile isBlank).reverse := List.reverse_append
  rw [← rest, trimLeft, List.takeWhile_append_dropWhile]

theorem trim_of_blanks {cs : List Char} (blank : Blanks cs) : trim cs = [] := by
  rw [trim, trimLeft_eq_nil.mpr blank]
  rfl

/-- **Blanks around a text are trimmed off.** -/
theorem trim_surrounded {front back : List Char} (before : Blanks front) (behind : Blanks back)
    (cs : List Char) : trim (front ++ (cs ++ back)) = trim cs := by
  rw [trim, trimLeft_append_of_blanks before]
  by_cases blank : Blanks cs
  · have whole : Blanks (cs ++ back) := blank.append behind
    exact (trim_of_blanks whole).trans (trim_of_blanks blank).symm
  · have nonempty : (trimLeft cs).isEmpty = false := by
      simpa [trimLeft_eq_nil] using blank
    have kept : trimLeft (cs ++ back) = trimLeft cs ++ back := by
      rw [trimLeft, List.dropWhile_append, ← trimLeft, nonempty]
      rfl
    rw [kept, List.reverse_append, trimLeft_append_of_blanks behind.reverse, trim]

theorem trim_trim (cs : List Char) : trim (trim cs) = trim cs := by
  obtain ⟨front, back, before, behind, split⟩ := exists_trim cs
  calc trim (trim cs)
    _ = trim (front ++ (trim cs ++ back)) := (trim_surrounded before behind _).symm
    _ = trim cs := by rw [← split]

def trimmed (text : String) : String := String.ofList (trim text.toList)

/-! ### Line ends -/

/-- The text with a carriage return in front of every line feed. -/
def withReturns (cs : List Char) : List Char :=
  cs.flatMap fun c => if c = '\n' then ['\r', '\n'] else [c]

theorem lines_of_pieces {cs last : List Char} {ended : List (List Char)}
    (h : splitAtFeeds cs = ended ++ [last]) :
    lines cs = ended.map chompReturn ++ ((some last).filter (· ≠ [])).toList := by
  simp [lines, h]

theorem splitAtFeeds_feed (cs : List Char) : splitAtFeeds ('\n' :: cs) = [] :: splitAtFeeds cs :=
  rfl

theorem splitAtFeeds_text {c : Char} (text : c ≠ '\n') {cs piece : List Char}
    {rest : List (List Char)} (h : splitAtFeeds cs = piece :: rest) :
    splitAtFeeds (c :: cs) = (c :: piece) :: rest := by
  unfold splitAtFeeds at h ⊢
  rw [List.foldr_cons, if_neg text, h]

/-- Each piece that a line feed ends has got a carriage return at its end. -/
theorem exists_pieces (cs : List Char) :
    ∃ ended last, splitAtFeeds cs = ended ++ [last] ∧
      splitAtFeeds (withReturns cs) = ended.map (· ++ ['\r']) ++ [last] := by
  induction cs with
  | nil => exact ⟨[], [], rfl, rfl⟩
  | cons c rest ih =>
    obtain ⟨ended, last, pieces, returned⟩ := ih
    by_cases feed : c = '\n'
    · subst feed
      refine ⟨[] :: ended, last, ?_, ?_⟩
      · rw [splitAtFeeds_feed, pieces]
        rfl
      · have split : splitAtFeeds (withReturns ('\n' :: rest)) =
            splitAtFeeds ('\r' :: '\n' :: withReturns rest) := rfl
        rw [split, splitAtFeeds_text (by decide) (splitAtFeeds_feed _), returned]
        rfl
    · have kept : withReturns (c :: rest) = c :: withReturns rest := by
        simp [withReturns, feed]
      rw [kept]
      -- the character goes to the first piece, which may be the last one
      rcases ended with _ | ⟨piece, ended⟩
      · exact ⟨[], c :: last, splitAtFeeds_text feed pieces, splitAtFeeds_text feed returned⟩
      · exact ⟨(c :: piece) :: ended, last, splitAtFeeds_text feed pieces,
          splitAtFeeds_text feed returned⟩

theorem trim_append_return (line : List Char) : trim (line ++ ['\r']) = trim line :=
  trim_surrounded blanks_nil (by simp [Blanks, isBlank, blankRanges]) line

theorem trim_chompReturn (line : List Char) : trim (chompReturn line) = trim line := by
  unfold chompReturn
  split
  · rename_i last
    have whole : line.dropLast ++ ['\r'] = line := List.dropLast_append_getLast? _ last
    calc trim line.dropLast
      _ = trim (line.dropLast ++ ['\r']) := (trim_append_return _).symm
      _ = trim line := by rw [whole]
  · rfl

/-- **Lines are the same but for blanks at their ends, whichever way they are ended.** -/
theorem map_trim_lines_withReturns (cs : List Char) :
    (lines (withReturns cs)).map trim = (lines cs).map trim := by
  obtain ⟨ended, last, pieces, returned⟩ := exists_pieces cs
  rw [lines_of_pieces pieces, lines_of_pieces returned]
  simp [trim_chompReturn, trim_append_return]

end NumericalControl.Text
