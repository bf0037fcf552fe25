/-
  NumericalControl/Toml/Value.lean
  ================================
  **Values of a TOML document.**  A document is a table: keys with values, of which some
  are tables again.  A table also remembers how it was written, because that decides
  what a later part of the document may add to it.

  Numbers are recognised by their looks and are worth something only if somebody asks
  for them.  So a value may hold a number that has no value: one beyond the range of
  floats, or a whole number with a letter among its digits.
-/

namespace NumericalControl.Toml

inductive Origin where
  /-- Passed through by the header of a table inside of it. -/
  | implicit
  /-- Passed through by a dotted key, whatever made it before. -/
  | dotted
  /-- Named by a header of its own. -/
  | header
  /-- Written in braces, and thereby complete. -/
  | inline
  deriving DecidableEq, Repr

inductive Value where
  /-- A whole number; none when its digits denote no number. -/
  | integer (n : Option Int)
  /-- A number with a point or an exponent; none when it is beyond the range of floats. -/
  | float (x : Option Float)
  | boolean (b : Bool)
  | string (text : String)
  /-- A date, a time, or both, as written. -/
  | dateTime (text : String)
  /-- Items; `open` arrays are those whose items are written under headers. -/
  | array (isOpen : Bool) (items : List Value)
  | table (origin : Origin) (entries : List (String × Value))
  deriving Repr

/-- The keys of a table with their values, in the order in which they were given. -/
abbrev Entries := List (String × Value)

namespace Value

/-- How many values a 64-bit word has. -/
def wordLimit : Nat := Nat.pow 2 64

/-- Integers that a 64-bit word, signed or not, can hold. -/
def fitsWord (n : Int) : Bool := decide (-(Nat.pow 2 63 : Int) ≤ n) && decide (n < wordLimit)

/-- Integers that a 128-bit word, signed or not, can hold. -/
def fitsDoubleWord (n : Int) : Bool :=
  decide (-(Nat.pow 2 127 : Int) ≤ n) && decide (n < (Nat.pow 2 128 : Int))

mutual

/-- Whether every number in a value has a value, and every whole number passes the test. -/
def isSound (fits : Int → Bool) : Value → Bool
  | integer n => n.any fits
  | float x => x.isSome
  | boolean _ | string _ | dateTime _ => true
  | array _ items => areSound fits items
  | table _ entries => entriesAreSound fits entries

def areSound (fits : Int → Bool) : List Value → Bool
  | [] => true
  | value :: rest => isSound fits value && areSound fits rest

def entriesAreSound (fits : Int → Bool) : List (String × Value) → Bool
  | [] => true
  | (_, value) :: rest => isSound fits value && entriesAreSound fits rest

end

end Value

end NumericalControl.Toml
