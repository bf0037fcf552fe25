/-
  NumericalControl/Word/Comment.lean
  ==================================
  **Comments.**  Text in round brackets is a comment, brackets nest, and a bracket that
  is never closed comments out the rest of the line.  Outside brackets a semicolon ends
  the line.  Every bracket leaves a blank behind, so that a comment parts the words
  around it.
-/

namespace NumericalControl.Comment

/-- The text outside comments, with `depth` brackets open at its start. A closing
    bracket that closes nothing is ordinary text. -/
def strip : (depth : Nat) → List Char → List Char
  | _, [] => []
  | depth, '(' :: rest => ' ' :: strip (depth + 1) rest
  | 0, ';' :: _ => []
  | 0, ')' :: rest => ')' :: ' ' :: strip 0 rest
  | depth + 1, ')' :: rest => ' ' :: strip depth rest
  | 0, c :: rest => c :: strip 0 rest
  | depth + 1, _ :: rest => strip (depth + 1) rest

end NumericalControl.Comment
