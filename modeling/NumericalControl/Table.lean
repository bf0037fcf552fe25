/-
  NumericalControl/Table.lean
  ===========================
  **Tables.**  A table has at most one row for a key, and its rows stand in ascending
  order of their keys.  That order is part of the type, so a table is determined by what
  its rows say: `insert` keeps it, and `get?` reads one row.
-/

namespace NumericalControl

structure Table (κ β : Type) [Ord κ] where
  rows : List (κ × β)
  ascending : rows.Pairwise fun p q => compare p.1 q.1 = .lt

namespace Table

variable {κ β : Type} [Ord κ]

def empty : Table κ β := ⟨[], .nil⟩

instance : Inhabited (Table κ β) := ⟨empty⟩

def get? [DecidableEq κ] (t : Table κ β) (key : κ) : Option β := t.rows.lookup key

@[simp] theorem get?_empty [DecidableEq κ] (key : κ) :
    (empty : Table κ β).get? key = none := rfl

def contains [DecidableEq κ] (t : Table κ β) (key : κ) : Bool := (t.get? key).isSome

def isEmpty (t : Table κ β) : Bool := t.rows.isEmpty

/-- Rows with the row of one key replaced, or put in where its key belongs. -/
def insertRow (key : κ) (value : β) : List (κ × β) → List (κ × β)
  | [] => [(key, value)]
  | row :: rest =>
    match compare key row.1 with
    | .lt => (key, value) :: row :: rest
    | .eq => (key, value) :: rest
    | .gt => row :: insertRow key value rest

theorem mem_insertRow {key : κ} {value : β} {row : κ × β} {rows : List (κ × β)}
    (h : row ∈ insertRow key value rows) : row = (key, value) ∨ row ∈ rows := by
  induction rows with
  | nil => simpa [insertRow] using h
  | cons first rest ih =>
    unfold insertRow at h
    split at h
    · simpa using h
    · simp only [List.mem_cons] at h ⊢
      exact h.imp id .inr
    · simp only [List.mem_cons] at h ⊢
      rcases h with h | h
      · exact .inr (.inl h)
      · exact (ih h).imp id .inr

variable [Std.TransOrd κ] [Std.LawfulEqOrd κ]

theorem insertRow_ascending (key : κ) (value : β) {rows : List (κ × β)}
    (h : rows.Pairwise fun p q => compare p.1 q.1 = .lt) :
    (insertRow key value rows).Pairwise fun p q => compare p.1 q.1 = .lt := by
  induction rows with
  | nil => simp [insertRow]
  | cons first rest ih =>
    obtain ⟨below, sorted⟩ := List.pairwise_cons.1 h
    unfold insertRow
    split
    · rename_i less
      refine List.pairwise_cons.2 ⟨fun row mem => ?_, h⟩
      rcases List.mem_cons.1 mem with rfl | mem
      · exact less
      · exact Std.TransCmp.lt_trans less (below row mem)
    · rename_i equal
      have same := Std.LawfulEqCmp.eq_of_compare equal
      exact List.pairwise_cons.2 ⟨fun row mem => same ▸ below row mem, sorted⟩
    · rename_i greater
      refine List.pairwise_cons.2 ⟨fun row mem => ?_, ih sorted⟩
      rcases mem_insertRow mem with rfl | mem
      · exact Std.OrientedCmp.lt_of_gt greater
      · exact below row mem

def insert (t : Table κ β) (key : κ) (value : β) : Table κ β :=
  ⟨insertRow key value t.rows, insertRow_ascending key value t.ascending⟩

/-! ### What a table says after a row is set -/

variable [DecidableEq κ]

theorem lookup_insertRow_self (key : κ) (value : β) (rows : List (κ × β)) :
    (insertRow key value rows).lookup key = some value := by
  induction rows with
  | nil => simp [insertRow]
  | cons first rest ih =>
    obtain ⟨firstKey, firstValue⟩ := first
    unfold insertRow
    split
    · simp
    · simp
    · rename_i greater
      have differ : key ≠ firstKey := fun same => by simp [same] at greater
      simp [List.lookup_cons, beq_false_of_ne differ, ih]

omit [Std.TransOrd κ] in
theorem lookup_insertRow_of_ne {key other : κ} (differ : other ≠ key) (value : β)
    (rows : List (κ × β)) : (insertRow key value rows).lookup other = rows.lookup other := by
  induction rows with
  | nil => simp [insertRow, List.lookup_cons, beq_false_of_ne differ]
  | cons first rest ih =>
    obtain ⟨firstKey, firstValue⟩ := first
    unfold insertRow
    split
    · simp [List.lookup_cons, beq_false_of_ne differ]
    · rename_i equal
      obtain rfl : key = firstKey := Std.LawfulEqCmp.eq_of_compare equal
      simp [List.lookup_cons, beq_false_of_ne differ]
    · simp [List.lookup_cons, ih]

@[simp] theorem get?_insert_self (t : Table κ β) (key : κ) (value : β) :
    (t.insert key value).get? key = some value :=
  lookup_insertRow_self key value t.rows

@[simp] theorem get?_insert_of_ne (t : Table κ β) {key other : κ} (differ : other ≠ key)
    (value : β) : (t.insert key value).get? other = t.get? other :=
  lookup_insertRow_of_ne differ value t.rows

end Table

end NumericalControl
