/-
  NumericalControl/Offset/Tool.lean
  =================================
  **Tool offsets.**  Two tables, numbered from 1, give for each register the measured
  size of a tool and its wear: one the length along the tool axis, the other the cutter's
  diameter.  Register 0 means "no offset" and never holds one.  An empty register counts
  as zero.
-/
import NumericalControl.Fault
import NumericalControl.Scalar
import NumericalControl.Table

namespace NumericalControl

/-- The measured size of a tool and the correction for its wear. -/
structure ToolOffset (α : Type) where
  geometry : α
  wear : α
  deriving DecidableEq, Repr

namespace ToolOffset

variable {α : Type} [Scalar α]

def total (offset : ToolOffset α) : α := offset.geometry + offset.wear

/-- Half of the size to reckon with, for a diameter. -/
def radius (offset : ToolOffset α) : α := offset.total / 2.0

end ToolOffset

structure ToolOffsets (α : Type) where
  lengths : Table Nat (ToolOffset α)
  diameters : Table Nat (ToolOffset α)

namespace ToolOffsets

variable {α : Type}

def empty : ToolOffsets α := ⟨.empty, .empty⟩

def table (offsets : ToolOffsets α) : RegisterKind → Table Nat (ToolOffset α)
  | .length => offsets.lengths
  | .diameter => offsets.diameters

def get? (offsets : ToolOffsets α) (kind : RegisterKind) (register : Nat) :
    Option (ToolOffset α) :=
  (offsets.table kind).get? register

/-- Sets a register. Register 0 cannot be set. -/
def set (offsets : ToolOffsets α) (kind : RegisterKind) (register : Nat)
    (offset : ToolOffset α) : Except (SetupFault α) (ToolOffsets α) :=
  if register = 0 then .error (.reservedRegister kind)
  else .ok <| match kind with
    | .length => { offsets with lengths := offsets.lengths.insert register offset }
    | .diameter => { offsets with diameters := offsets.diameters.insert register offset }

theorem get?_of_set {offsets next : ToolOffsets α} {kind other : RegisterKind}
    {register number : Nat} {offset : ToolOffset α}
    (h : offsets.set kind register offset = .ok next) :
    next.get? other number =
      if other = kind ∧ number = register then some offset else offsets.get? other number := by
  unfold set at h
  split at h
  · contradiction
  · cases kind <;> cases other <;> cases h <;> by_cases same : number = register <;>
      simp [get?, table, same]

/-- The rows of a table, by ascending register. -/
def rows (offsets : ToolOffsets α) (kind : RegisterKind) : List (Nat × ToolOffset α) :=
  (offsets.table kind).rows

/-- Sets registers that must not be set yet. -/
def addRows (kind : RegisterKind) (offsets : ToolOffsets α)
    (rows : List (Nat × ToolOffset α)) : Except (SetupFault α) (ToolOffsets α) :=
  rows.foldlM
    (fun offsets (register, offset) =>
      if (offsets.get? kind register).isSome then .error (.repeatedRegister kind register)
      else offsets.set kind register offset)
    offsets

/-- The tables with the given rows, lengths first. -/
def ofRows (lengths diameters : List (Nat × ToolOffset α)) :
    Except (SetupFault α) (ToolOffsets α) := do
  addRows .diameter (← addRows .length empty lengths) diameters

variable [Scalar α]

def length (offsets : ToolOffsets α) (register : Nat) : α :=
  ((offsets.get? .length register).map ToolOffset.total).getD 0.0

def radius (offsets : ToolOffsets α) (register : Nat) : α :=
  ((offsets.get? .diameter register).map ToolOffset.radius).getD 0.0

end ToolOffsets

end NumericalControl
