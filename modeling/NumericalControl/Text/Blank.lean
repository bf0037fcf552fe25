/-
  NumericalControl/Text/Blank.lean
  ================================
  **Blanks and what they separate.**  `isBlank` is the Unicode property White_Space:
  25 characters, among them line ends and the wide spaces of typography.  A line is cut
  into `tokens`, its maximal runs without a blank, and `trim` takes the blanks off both
  ends.
-/

namespace NumericalControl.Text

/-- The ranges of code points with the property White_Space, ends included. -/
def blankRanges : List (Nat × Nat) :=
  [(0x09, 0x0D), (0x20, 0x20), (0x85, 0x85), (0xA0, 0xA0), (0x1680, 0x1680),
   (0x2000, 0x200A), (0x2028, 0x2029), (0x202F, 0x202F), (0x205F, 0x205F),
   (0x3000, 0x3000)]

def isBlank (c : Char) : Bool :=
  blankRanges.any fun (first, last) => decide (first ≤ c.toNat) && decide (c.toNat ≤ last)

/-- There are 25 blank characters. -/
theorem blankRanges_size :
    blankRanges.foldl (fun count (first, last) => count + (last + 1 - first)) 0 = 25 := by
  decide

/-- The maximal runs of characters that are not blank, in order: the line is cut where
    blankness changes, and the blank runs are dropped. -/
def tokens (cs : List Char) : List (List Char) :=
  (cs.splitBy fun a b => isBlank a == isBlank b).filter fun run => !run.any isBlank

def trimLeft (cs : List Char) : List Char := cs.dropWhile isBlank

def trim (cs : List Char) : List Char := (trimLeft (trimLeft cs).reverse).reverse

end NumericalControl.Text
