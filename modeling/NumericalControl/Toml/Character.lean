/-
  NumericalControl/Toml/Character.lean
  ====================================
  **Characters of a document.**  The classes of characters that the rules of a document
  speak of, and the values of digits.  All classes are within ASCII; any other character
  stands for itself in comments and strings, and nowhere else.
-/

namespace NumericalControl.Toml

/-- Control characters, of which only the tab may occur in comments and strings. -/
def isControl (c : Char) : Bool :=
  (decide (c.toNat < 0x20) && c != '\t') || c.toNat == 0x7F

def isSpace (c : Char) : Bool := c == ' ' || c == '\t'

/-- Characters that divide a document by themselves. -/
def isMark (c : Char) : Bool := ['.', '=', ',', '[', ']', '\x7b', '\x7d'].contains c

/-- Characters of numbers, dates, words and keys without quotes: all that divides
    nothing. -/
def isAtomChar (c : Char) : Bool :=
  !isMark c && !isSpace c && c != '#' && c != '\n' && c != '\r'

/-- Characters that a key may have without quotes. -/
def isKeyChar (c : Char) : Bool := c.isAlphanum || c == '_' || c == '-'

/-! ### Digits -/

def isHexDigit (c : Char) : Bool :=
  c.isDigit || ('a' ≤ c && c ≤ 'f') || ('A' ≤ c && c ≤ 'F')

/-- The value of a digit in any base up to sixteen. -/
def digitValue (c : Char) : Nat :=
  if c.isDigit then c.toNat - '0'.toNat
  else if 'a' ≤ c then c.toNat - 'a'.toNat + 10
  else c.toNat - 'A'.toNat + 10

def valueInBase (base : Nat) (ds : List Char) : Nat :=
  ds.foldl (fun n c => base * n + digitValue c) 0

end NumericalControl.Toml
