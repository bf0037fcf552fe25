/-
  NumericalControl/Offset/Work.lean
  =================================
  **Work offsets.**  A work offset is a named shift of the program's origin.  The case
  of a name does not matter: names are stored in upper case, and only the letters A to Z
  have a case here.  A name that the table lacks shifts by nothing.
-/
import NumericalControl.Fault
import NumericalControl.Position
import NumericalControl.Table

namespace NumericalControl

/-- A name in the form in which it is stored. -/
def upperName (name : String) : String := String.ofList (name.toList.map Char.toUpper)

structure WorkOffsets (α : Type) where
  table : Table String (Position α)

namespace WorkOffsets

variable {α : Type}

def empty : WorkOffsets α := ⟨.empty⟩

def insert (offsets : WorkOffsets α) (name : String) (shift : Position α) : WorkOffsets α :=
  ⟨offsets.table.insert (upperName name) shift⟩

def get? (offsets : WorkOffsets α) (name : String) : Option (Position α) :=
  offsets.table.get? (upperName name)

theorem get?_insert (offsets : WorkOffsets α) (name other : String) (shift : Position α) :
    (offsets.insert name shift).get? other =
      if upperName other = upperName name then some shift else offsets.get? other := by
  unfold insert get?
  split
  · rename_i same
    rw [same, Table.get?_insert_self]
  · rename_i differ
    rw [Table.get?_insert_of_ne _ differ]

def contains (offsets : WorkOffsets α) (name : String) : Bool := (offsets.get? name).isSome

def isEmpty (offsets : WorkOffsets α) : Bool := offsets.table.isEmpty

/-- The shift of a name, zero when there is none. -/
def shift [Scalar α] (offsets : WorkOffsets α) (name : String) : Position α :=
  (offsets.get? name).getD .zero

def toEntries (offsets : WorkOffsets α) : List (String × Position α) := offsets.table.rows

/-- The table with the given entries, none of which may repeat the name of another. -/
def ofEntries (entries : List (String × Position α)) :
    Except (SetupFault α) (WorkOffsets α) :=
  entries.foldlM
    (fun offsets (name, shift) =>
      if offsets.contains name then .error (.repeatedName (upperName name))
      else .ok (offsets.insert name shift))
    empty

end WorkOffsets

end NumericalControl
