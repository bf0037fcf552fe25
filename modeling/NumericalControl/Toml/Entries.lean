/-
  NumericalControl/Toml/Entries.lean
  ==================================
  **Adding to a table.**  A dotted key names an entry of a table inside a table.  On its
  way it makes the tables that are missing, and it makes those its own that so far only
  headers have passed through: no header can open them any more.  A table that a header
  has opened, or that braces complete, is closed to dotted keys of other tables.
-/
import NumericalControl.Toml.Value

namespace NumericalControl.Toml

/-- Replaces the value of a key, or adds the key at the end. -/
def putEntry (key : String) (value : Value) : Entries → Entries
  | [] => [(key, value)]
  | entry :: rest =>
    if entry.1 = key then (key, value) :: rest else entry :: putEntry key value rest

/-- Changes the table that is the last of some items. -/
def alterLastItem (f : Entries → Option Entries) (items : List Value) : Option (List Value) :=
  match items.getLast? with
  | some (.table origin inner) =>
    (f inner).map fun inner => items.dropLast ++ [.table origin inner]
  | _ => none

/-- Adds a value under a dotted path. The key must be new. An array of tables on the way
    stands for its last one, which takes tables in this way but no value. -/
def addEntry (value : Value) : (path : List String) → Entries → Option Entries
  | [], _ => none
  | [key], entries =>
    if (entries.lookup key).isSome then none else some (putEntry key value entries)
  | key :: rest, entries =>
    match entries.lookup key with
    | none => (addEntry value rest []).map fun inner => putEntry key (.table .dotted inner) entries
    | some (.table origin inner) =>
      if origin = .implicit ∨ origin = .dotted then
        (addEntry value rest inner).map fun inner => putEntry key (.table .dotted inner) entries
      else none
    | some (.array true items) =>
      if rest.length = 1 then none
      else
        (alterLastItem (fun inner => addEntry value rest inner) items).map fun items =>
          putEntry key (.array true items) entries
    | some _ => none

end NumericalControl.Toml
