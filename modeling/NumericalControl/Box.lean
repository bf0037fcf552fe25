/-
  NumericalControl/Box.lean
  =========================
  **Boxes along the axes.**  A box is a lowest and a highest position.  It grows point by
  point; an undefined coordinate leaves it as it is, because `Scalar.min` and
  `Scalar.max` drop undefined arguments.  Containment looks at the linear axes alone:
  rotary axes turn without end and never limit a move.
-/
import NumericalControl.Position

namespace NumericalControl

structure Box (α : Type) where
  min : Position α
  max : Position α
  deriving DecidableEq, Repr

namespace Box

variable {α : Type}

def ofPoint (p : Position α) : Box α := ⟨p, p⟩

variable [Scalar α]

/-- Grows the box along one axis until it reaches `value`. -/
def growOn (box : Box α) (axis : Axis) (value : α) : Box α where
  min := box.min.set axis (Scalar.min (box.min.get axis) value)
  max := box.max.set axis (Scalar.max (box.max.get axis) value)

def grow (box : Box α) (p : Position α) : Box α where
  min := .ofAxes fun axis => Scalar.min (box.min.get axis) (p.get axis)
  max := .ofAxes fun axis => Scalar.max (box.max.get axis) (p.get axis)

/-- Grows the box until it reaches both corners of the other. -/
def union (box other : Box α) : Box α := (box.grow other.min).grow other.max

def size (box : Box α) (axis : Axis) : α := box.max.get axis - box.min.get axis

/-- Whether `p` lies between the ends of the box on every linear axis. -/
def contains (box : Box α) (p : Position α) : Bool :=
  Axis.linear.all fun axis =>
    decide (box.min.get axis ≤ p.get axis) && decide (p.get axis ≤ box.max.get axis)

def fitsWithin (box outer : Box α) : Bool :=
  outer.contains box.min && outer.contains box.max

/-- Whether the lowest corner is nowhere above the highest, rotary axes included. -/
def isWellFormed (box : Box α) : Bool :=
  Axis.all.all fun axis => decide (box.min.get axis ≤ box.max.get axis)

end Box

end NumericalControl
