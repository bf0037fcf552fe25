/-
  NumericalControl/Scalar.lean
  ============================
  **The numbers a program is computed with.**  Everything between the words of a
  program and the finished toolpath is written over a type `α` of scalars, so the
  same definitions run on binary floating point (`Scalar/Binary64.lean`) and can be
  read over the real numbers, where angles and lengths obey the laws of geometry.

  `Scalar α` lists what the computation uses: arithmetic, the order, decimal
  literals, and the functions of plane geometry.  No law is part of the class.  A
  comparison with an undefined value (`IsNaN`) is false on both sides, and the
  derived operations below say which way each of them goes in that case.
-/

namespace NumericalControl

/-- A type of numbers to compute toolpaths with. -/
class Scalar (α : Type) extends Add α, Sub α, Mul α, Div α, Neg α, LT α, LE α,
    OfScientific α where
  decidableLt : DecidableRel (fun a b : α => a < b)
  decidableLe : DecidableRel (fun a b : α => a ≤ b)
  /-- A number, neither infinite nor undefined. -/
  isFinite : α → Bool
  abs : α → α
  /-- One with the sign of the argument. -/
  sign : α → α
  sqrt : α → α
  /-- Length of the plane vector with the two given components. -/
  hypot : α → α → α
  sin : α → α
  cos : α → α
  /-- `arctan2 y x` is the angle of the plane vector `(x, y)`. -/
  arctan2 : α → α → α
  /-- Remainder of a division by a positive number, never negative. -/
  modulo : α → α → α
  /-- A full turn, in radians. -/
  turn : α
  /-- The scalar that a natural number denotes. -/
  ofNat : Nat → α
  /-- Largest natural number that is not above the argument, zero if there is none. -/
  floor : α → Nat
  /-- Smallest natural number that is not below the argument. -/
  ceil : α → Nat
  /-- Nearest integer, halves away from zero. -/
  round : α → α

namespace Scalar

variable {α : Type} [Scalar α]

instance (a b : α) : Decidable (a < b) := Scalar.decidableLt a b

instance (a b : α) : Decidable (a ≤ b) := Scalar.decidableLe a b

/-- The undefined value is the one that is not even comparable with itself. -/
abbrev IsNaN (a : α) : Prop := ¬ a ≤ a

/-- Equality of values: both orders hold. Zeros of either sign agree, and the
    undefined value equals nothing. -/
abbrev Same (a b : α) : Prop := a ≤ b ∧ b ≤ a

/-- Finite and above zero. -/
def isPositive (a : α) : Bool := isFinite a && decide ((0.0 : α) < a)

/-! ### Larger, smaller, clamped

An undefined argument is dropped, and of two equal values the second is kept. -/

def max (a b : α) : α := if IsNaN a then b else if a ≤ b then b else a

def min (a b : α) : α := if IsNaN a then b else if b ≤ a then b else a

/-- The value moved to the nearer end of `[lo, hi]` when it lies outside. -/
def clamp (lo hi a : α) : α := if a < lo then lo else if hi < a then hi else a

end Scalar

end NumericalControl
