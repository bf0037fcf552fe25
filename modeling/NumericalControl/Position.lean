/-
  NumericalControl/Position.lean
  ==============================
  **Positions.**  A position gives a coordinate on each of the five axes.  What acts on
  all axes alike is defined through `ofAxes` and `get`, one coordinate at a time;
  distances keep the linear and the rotary axes apart, since millimetres and degrees do
  not add.
-/
import NumericalControl.Axis
import NumericalControl.Scalar

namespace NumericalControl

structure Position (α : Type) where
  x : α
  y : α
  z : α
  a : α
  b : α
  deriving DecidableEq, Repr

namespace Position

variable {α : Type}

def ofAxes (f : Axis → α) : Position α := ⟨f .x, f .y, f .z, f .a, f .b⟩

def get (p : Position α) : Axis → α
  | .x => p.x
  | .y => p.y
  | .z => p.z
  | .a => p.a
  | .b => p.b

def set (p : Position α) (axis : Axis) (value : α) : Position α :=
  ofAxes fun other => if other = axis then value else p.get other

@[simp] theorem get_ofAxes (f : Axis → α) (axis : Axis) : (ofAxes f).get axis = f axis := by
  cases axis <;> rfl

@[simp] theorem ofAxes_get (p : Position α) : ofAxes p.get = p := rfl

theorem ext_get {p q : Position α} (h : ∀ axis, p.get axis = q.get axis) : p = q := by
  rw [← ofAxes_get p, ← ofAxes_get q, funext h]

@[simp] theorem get_set_self (p : Position α) (axis : Axis) (value : α) :
    (p.set axis value).get axis = value := by simp [set]

@[simp] theorem get_set_of_ne (p : Position α) {axis other : Axis} (h : other ≠ axis)
    (value : α) : (p.set axis value).get other = p.get other := by simp [set, h]

variable [Scalar α]

def zero : Position α := ofAxes fun _ => 0.0

def add (p q : Position α) : Position α := ofAxes fun axis => p.get axis + q.get axis

def sub (p q : Position α) : Position α := ofAxes fun axis => p.get axis - q.get axis

/-- The point at fraction `t` of the way from `p` to `q`, on every axis. -/
def lerp (p q : Position α) (t : α) : Position α :=
  ofAxes fun axis => p.get axis + (q.get axis - p.get axis) * t

/-- Square of the distance from `p` to `q` along one axis. -/
def squaredGap (p q : Position α) (axis : Axis) : α :=
  (q.get axis - p.get axis) * (q.get axis - p.get axis)

/-- Distance over the linear axes, in millimetres. -/
def linearDistance (p q : Position α) : α :=
  Scalar.sqrt (squaredGap p q .x + squaredGap p q .y + squaredGap p q .z)

/-- Distance over the rotary axes, in degrees. -/
def rotaryDistance (p q : Position α) : α :=
  Scalar.sqrt (squaredGap p q .a + squaredGap p q .b)

end Position

end NumericalControl
