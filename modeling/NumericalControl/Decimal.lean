/-
  NumericalControl/Decimal.lean
  =============================
  **Decimal numerals.**  A `Decimal` is a sign, a whole number of units and the power
  of ten of one unit.  Programs write numbers without an exponent (`plain?`), machine
  setups also with one (`scientific?`); both readers work on the whole list of
  characters and accept it or refuse it, so nothing is left over.

      sign?  digits [ . [digits] ]       or       sign?  . digits
-/
import NumericalControl.Scalar

namespace NumericalControl

/-- The number `± units * 10 ^ exponent`. -/
structure Decimal where
  negative : Bool
  units : Nat
  exponent : Int
  deriving DecidableEq, Repr

namespace Decimal

/-- The scalar nearest to the numeral. The sign is applied last, so that minus zero
    stays apart from zero where scalars tell them apart. -/
def toScalar {α : Type} [Scalar α] (d : Decimal) : α :=
  let magnitude : α :=
    OfScientific.ofScientific d.units (decide (d.exponent < 0)) d.exponent.natAbs
  if d.negative then -magnitude else magnitude

/-! ### Reading -/

/-- An optional sign in front; `true` for a minus. -/
def splitSign : List Char → Bool × List Char
  | '-' :: rest => (true, rest)
  | '+' :: rest => (false, rest)
  | rest => (false, rest)

def digitValue (c : Char) : Nat := c.toNat - '0'.toNat

/-- How far the digits of a block are added up before the number takes them in. -/
def blockScale : Nat := 1000000000000000000

/-- A number in the making: `total` with the digits before the current block, `block` with
    those of the block, and the power of ten by which the block's digits shift. -/
structure Digits where
  total : Nat
  block : Nat
  scale : Nat

namespace Digits

def value (ds : Digits) : Nat := ds.total * ds.scale + ds.block

/-- Takes in one more digit. A full block goes to the total first. -/
def push (ds : Digits) (c : Char) : Digits :=
  if ds.scale = blockScale then ⟨ds.value, digitValue c, 10⟩
  else ⟨ds.total, 10 * ds.block + digitValue c, 10 * ds.scale⟩

theorem value_push (ds : Digits) (c : Char) :
    (ds.push c).value = 10 * ds.value + digitValue c := by
  unfold push
  split
  · simp only [value]
    omega
  · simp only [value, Nat.mul_add, Nat.mul_left_comm, Nat.add_assoc]

end Digits

/-- The number that a row of decimal digits denotes. Digits are added up in blocks, which
    keeps the time for a long row down. -/
def valueOfDigits (ds : List Char) : Nat := (ds.foldl Digits.push ⟨0, 0, 1⟩).value

/-- Digit by digit, each one shifts the number before it. -/
theorem valueOfDigits_eq_foldl (ds : List Char) :
    valueOfDigits ds = ds.foldl (fun n c => 10 * n + digitValue c) 0 := by
  suffices h : ∀ state : Digits, (ds.foldl Digits.push state).value =
      ds.foldl (fun n c => 10 * n + digitValue c) state.value from h ⟨0, 0, 1⟩
  induction ds with
  | nil => exact fun _ => rfl
  | cons c rest ih =>
    intro state
    rw [List.foldl_cons, List.foldl_cons, ih, Digits.value_push]

/-- Reads digits with at most one point among them and at least one digit. -/
def unsigned? (negative : Bool) (cs : List Char) : Option Decimal :=
  let whole := cs.takeWhile Char.isDigit
  match cs.dropWhile Char.isDigit with
  | [] => if whole.isEmpty then none else some ⟨negative, valueOfDigits whole, 0⟩
  | '.' :: fraction =>
    if fraction.all Char.isDigit && !(whole.isEmpty && fraction.isEmpty) then
      some ⟨negative, valueOfDigits (whole ++ fraction), -fraction.length⟩
    else none
  | _ => none

def plain? (cs : List Char) : Option Decimal :=
  let (negative, rest) := splitSign cs
  unsigned? negative rest

def integer? (cs : List Char) : Option Int :=
  let (negative, ds) := splitSign cs
  if ds.isEmpty || !ds.all Char.isDigit then none
  else some (if negative then -(valueOfDigits ds : Int) else valueOfDigits ds)

/-- Reads a numeral with an optional exponent, which shifts the unit. -/
def scientific? (cs : List Char) : Option Decimal :=
  let isMark := fun c => c == 'e' || c == 'E'
  match cs.dropWhile (!isMark ·) with
  | [] => plain? cs
  | _ :: power =>
    match plain? (cs.takeWhile (!isMark ·)), integer? power with
    | some d, some n => some { d with exponent := d.exponent + n }
    | _, _ => none

end Decimal

end NumericalControl
