/-
  NumericalControl/Toolpath/Search.lean
  =====================================
  **Search in a partitioned array.**  Where a test holds for a first part of an array
  and fails for the rest, `partitionPoint` is the place where the rest begins.  The
  search halves the candidates; an array that is not partitioned still gives an answer,
  fixed by the places that the halving looks at.
-/

namespace NumericalControl

variable {β : Type}

/-- Whether the test holds at a place of the array. -/
def holdsAt (test : β → Bool) (xs : Array β) (i : Nat) : Bool := xs[i]?.any test

/-- Narrows the candidates `base, …, base + size - 1` down to one: the last place where
    the test holds, or the first candidate if it holds nowhere. -/
def narrow (test : β → Bool) (xs : Array β) (base size : Nat) : Nat :=
  if size ≤ 1 then base
  else
    let half := size / 2
    narrow test xs (if holdsAt test xs (base + half) then base + half else base) (size - half)
termination_by size
decreasing_by omega

/-- The place of the first element that fails the test. -/
def partitionPoint (test : β → Bool) (xs : Array β) : Nat :=
  let last := narrow test xs 0 xs.size
  if holdsAt test xs last then last + 1 else last

end NumericalControl
