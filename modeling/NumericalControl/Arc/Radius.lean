/-
  NumericalControl/Arc/Radius.lean
  ================================
  **The center of an arc given by its radius.**  Two circles of radius `|r|` pass
  through both ends of a chord.  Their centers lie on the chord's bisector, one on each
  side.  A positive `r` asks for the arc of at most half a turn and a negative one for
  the other, so the center lies to the left of the chord exactly when one of "counter-
  clockwise" and "negative" holds and the other does not hold.
-/
import NumericalControl.Arc

namespace NumericalControl

/-- What the ends of an arc and its radius tell about its center. -/
inductive RadiusCenter (α : Type) where
  /-- The center. -/
  | center (point : α × α)
  /-- The radius does not reach: the middle of the chord, for half a circle. -/
  | clamped (point : α × α)
  /-- The ends coincide, and any center would do. -/
  | undetermined
  deriving DecidableEq, Repr

/-- The center of the arc from `start` to `target` with radius `r`. -/
def centerFromRadius {α : Type} [Scalar α] (start target : α × α) (r : α)
    (direction : Direction) (tolerance : α) : RadiusCenter α :=
  let chord := planeDistance start target
  if chord < tolerance then .undetermined
  else
    let half := chord / 2.0
    let middle := ((start.1 + target.1) / 2.0, (start.2 + target.2) / 2.0)
    -- the unit vector to the left of the chord
    let left := (-(target.2 - start.2) / chord, (target.1 - start.1) / chord)
    if Scalar.abs r < half then .clamped middle
    else
      let height := Scalar.sqrt (r * r - half * half)
      let side := direction.sign * Scalar.sign r
      .center (middle.1 + left.1 * height * side, middle.2 + left.2 * height * side)

end NumericalControl
