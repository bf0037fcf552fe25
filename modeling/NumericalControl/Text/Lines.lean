/-
  NumericalControl/Text/Lines.lean
  ================================
  **The lines of a text.**  A line ends with a line feed, and one carriage return in
  front of that line feed belongs to the line end.  The last line need not be ended; a
  text that ends with a line feed has no further, empty line after it.
-/

namespace NumericalControl.Text

/-- The pieces between line feeds, one more than there are line feeds. -/
def splitAtFeeds (cs : List Char) : List (List Char) :=
  cs.foldr
    (fun c pieces =>
      if c = '\n' then [] :: pieces
      else match pieces with
        | [] => [[c]]
        | piece :: rest => (c :: piece) :: rest)
    [[]]

/-- Takes one carriage return off the end. -/
def chompReturn (line : List Char) : List Char :=
  if line.getLast? = some '\r' then line.dropLast else line

/-- All pieces but the last were ended by a line feed. -/
def lines (cs : List Char) : List (List Char) :=
  let pieces := splitAtFeeds cs
  pieces.dropLast.map chompReturn ++ (pieces.getLast?.filter (· ≠ [])).toList

end NumericalControl.Text
