/-
  NumericalControl/Toml/Statement.lean
  ====================================
  **Statements of a document, as written.**  A document is a row of statements: a header
  opens a table or a further table of an array, and an entry gives a key its value.  Here
  keys and values are kept as they are written, so a statement can be well formed and
  still say nothing that makes sense.
-/
import NumericalControl.Toml.Quoted

namespace NumericalControl.Toml

/-- A part of a key, or a value without parts, as written. -/
inductive Piece where
  | bare (text : List Char)
  | quoted (q : Quoted)
  deriving DecidableEq, Repr

/-- A piece that is not there: empty text, which denotes nothing. -/
def Piece.missing : Piece := .bare []

inductive Written where
  | piece (p : Piece)
  | array (items : List Written)
  /-- A table in braces. -/
  | table (members : List (List Piece × Written))
  deriving Repr

inductive Statement where
  /-- Opens the table with the given path. -/
  | header (path : List Piece)
  /-- Adds a table to the array with the given path. -/
  | arrayHeader (path : List Piece)
  /-- Gives the key at the end of a dotted path its value. -/
  | entry (path : List Piece) (value : Written)
  deriving Repr

end NumericalControl.Toml
