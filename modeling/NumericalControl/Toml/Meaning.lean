/-
  NumericalControl/Toml/Meaning.lean
  ==================================
  **What keys and values denote.**  A piece of text denotes a part of a key, a value, or
  nothing, by rules of its own.  All parts are looked at in the order in which they are
  written, and the first that is refused decides why the document is.
-/
import NumericalControl.Toml.DateTime
import NumericalControl.Toml.Entries
import NumericalControl.Toml.Number
import NumericalControl.Toml.Statement

namespace NumericalControl.Toml

/-- Why a text is no document. -/
inductive Refusal where
  /-- Some part of the text breaks a rule. -/
  | malformed
  /-- A key has too many parts. -/
  | longKey
  deriving DecidableEq, Repr

/-- What is recognised; anything else is malformed. -/
def recognised {γ : Type} : Option γ → Except Refusal γ
  | some x => .ok x
  | none => .error .malformed

/-! ### Keys -/

/-- The part of a key that a piece denotes. A string of several lines is no key. -/
def Piece.key? : Piece → Option String
  | .bare text => if !text.isEmpty && text.all isKeyChar then some (String.ofList text) else none
  | .quoted q => if q.long then none else q.text?.map String.ofList

/-- How many parts a key may have. -/
def keyLimit : Nat := 80

/-- The path that a dotted key denotes. Its parts are looked at before they are
    counted. -/
def pathOf (parts : List Piece) : Except Refusal (List String) := do
  let path ← recognised (parts.mapM Piece.key?)
  if keyLimit < path.length then .error .longKey
  else return path

/-! ### Values -/

def bareValue? (cs : List Char) : Option Value :=
  if cs = ['t', 'r', 'u', 'e'] then some (.boolean true)
  else if cs = ['f', 'a', 'l', 's', 'e'] then some (.boolean false)
  else if DateTime.isDateTime cs then some (.dateTime (String.ofList cs))
  else number? cs

def Piece.value? : Piece → Option Value
  | .bare text => bareValue? text
  | .quoted q => q.text?.map fun text => .string (String.ofList text)

mutual

def Written.value : Written → Except Refusal Value
  | .piece p => recognised p.value?
  | .array items => do return .array false (← valuesOf items)
  | .table members => do return .table .inline (← entriesOf [] members)

def valuesOf : List Written → Except Refusal (List Value)
  | [] => return []
  | item :: rest => do
    let v ← item.value
    return v :: (← valuesOf rest)

/-- The entries with those of a table in braces added. -/
def entriesOf (entries : Entries) : List (List Piece × Written) → Except Refusal Entries
  | [] => return entries
  | (parts, item) :: rest => do
    let path ← pathOf parts
    let v ← item.value
    entriesOf (← recognised (addEntry v path entries)) rest

end

end NumericalControl.Toml
