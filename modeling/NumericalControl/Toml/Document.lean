/-
  NumericalControl/Toml/Document.lean
  ===================================
  **The table of a document.**  Statements are carried out one by one on a growing table.
  A header names the table that the entries after it belong to.  No key is given twice,
  and no part of a document reaches into a table that is complete.
-/
import NumericalControl.Toml.Meaning
import NumericalControl.Toml.Reader

namespace NumericalControl.Toml

/-- Changes the table at a path. Tables on the way that are missing are made, and an array
    of tables stands for its last one. -/
def alter (f : Entries → Option Entries) : (path : List String) → Entries → Option Entries
  | [], entries => f entries
  | key :: rest, entries =>
    match entries.lookup key with
    | none => (alter f rest []).map fun inner => putEntry key (.table .implicit inner) entries
    | some (.table .inline _) => none
    | some (.table origin inner) =>
      (alter f rest inner).map fun inner => putEntry key (.table origin inner) entries
    | some (.array true items) =>
      (alterLastItem (fun inner => alter f rest inner) items).map fun items =>
        putEntry key (.array true items) entries
    | some _ => none

/-- Opens the table of a key for its own entries, once. -/
def openTable (key : String) (entries : Entries) : Option Entries :=
  match entries.lookup key with
  | none => some (putEntry key (.table .header []) entries)
  | some (.table .implicit inner) => some (putEntry key (.table .header inner) entries)
  | some _ => none

def extendArray (item : Entries) (key : String) (entries : Entries) : Option Entries :=
  match entries.lookup key with
  | none => some (putEntry key (.array true [.table .header item]) entries)
  | some (.array true items) =>
    some (putEntry key (.array true (items ++ [.table .header item])) entries)
  | some _ => none

/-- Changes what the last key of a path stands for. -/
def alterLast (f : String → Entries → Option Entries) (path : List String)
    (entries : Entries) : Option Entries :=
  path.getLast?.bind fun key => alter (f key) path.dropLast entries

inductive Place where
  /-- Into the table with the given path. -/
  | table (path : List String)
  /-- Into a further table of the array with the given path. It is added to the array
      only when it is complete. -/
  | item (path : List String) (entries : Entries)

/-- A document while its statements are carried out: the table so far, and the place of
    the next entry. -/
structure Progress where
  entries : Entries
  place : Place

namespace Progress

/-- The table so far with all that has been opened in its place. -/
def close (p : Progress) : Except Refusal Entries :=
  match p.place with
  | .table _ => return p.entries
  | .item path inner => recognised (alterLast (extendArray inner) path p.entries)

/-- Adds a value under a dotted path in the open place. -/
def add (p : Progress) (path : List String) (v : Value) : Option Progress :=
  match p.place with
  | .table current => (alter (addEntry v path) current p.entries).map (⟨·, p.place⟩)
  | .item current inner => (addEntry v path inner).map fun inner => ⟨p.entries, .item current inner⟩

def carryOut (p : Progress) : Statement → Except Refusal Progress
  | .header parts => do
    let entries ← p.close
    let path ← pathOf parts
    return ⟨← recognised (alterLast openTable path entries), .table path⟩
  | .arrayHeader parts => do
    let entries ← p.close
    let path ← pathOf parts
    return ⟨entries, .item path []⟩
  | .entry parts written => do
    let path ← pathOf parts
    let v ← written.value
    recognised (p.add path v)

end Progress

/-- The table of a document. All of its text must be statements before any of them is
    carried out. -/
def document (text : String) : Except Refusal Entries := do
  let done ← (← recognised (statements? text)).foldlM Progress.carryOut ⟨[], .table []⟩
  done.close

end NumericalControl.Toml
