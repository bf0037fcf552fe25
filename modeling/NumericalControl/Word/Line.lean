/-
  NumericalControl/Word/Line.lean
  ===============================
  **Reading a program line.**  After its comments are taken out, a line is cut into
  tokens at blanks and each token into pieces, one for each word packed into it:
  `G01X10Y5` has three.  A piece that reads as a word becomes one, and every other piece
  is kept as it stands, so that it can be reported.  A line whose first visible
  character is a percent sign marks the ends of a program and holds nothing.
-/
import NumericalControl.Text.Blank
import NumericalControl.Word
import NumericalControl.Word.Comment

namespace NumericalControl

/-- What a line holds: its words and the pieces that are none, each in their order. -/
structure Line (α : Type) where
  words : List (Word α)
  rejected : List String
  deriving DecidableEq, Repr

namespace Line

/-- Whether a new piece starts at `c`: at a letter, except for the letter E directly
    after a digit or a point. That one stays with its number, which then is no word. -/
def startsPiece (previous c : Char) : Bool :=
  c.isAlpha && !((c == 'e' || c == 'E') && (previous.isDigit || previous == '.'))

/-- The pieces of a token. A token that does not start with a letter is one piece. -/
def pieces (token : List Char) : List (List Char) :=
  if token.head?.any Char.isAlpha then token.splitBy fun a b => !startsPiece a b
  else [token]

/-- All pieces of a line without comments. -/
def allPieces (code : List Char) : List (List Char) :=
  if (Text.trimLeft code).head? = some '%' then []
  else (Text.tokens code).flatMap pieces

variable {α : Type} [Scalar α]

def ofPieces (ps : List (List Char)) : Line α where
  words := ps.filterMap Word.ofPiece?
  rejected := (ps.filter fun p => (Word.ofPiece? p : Option (Word α)).isNone).map String.ofList

def read (text : String) : Line α :=
  ofPieces (allPieces (Comment.strip 0 text.toList))

end Line

end NumericalControl
