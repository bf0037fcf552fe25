/-
  NumericalControl/Machine/Document.lean
  ======================================
  **Machine setups as documents.**  A setup is kept in a TOML document with a table
  `machine` and, if wanted, tables of offsets.  Its entries are visited in the order of
  their keys, and the first fault is the one reported: an entry of the wrong type counts
  where it is visited, and a missing entry after all entries of its table.  Entries with
  other keys are passed over.

  A record may also be written as an array of its entries, in the order in which the
  record lists them.
-/
import NumericalControl.Machine
import NumericalControl.Toml.Document

namespace NumericalControl

open Toml

/-- What reading a part of a document gives. -/
abbrev Decoded (β : Type) := Except (SetupFault Float) β

namespace Decode

/-! ### Numbers -/

def float : Value → Decoded Float
  | .integer (some n) => if Value.fitsWord n then .ok (Float.ofInt n) else .error .unreadable
  | .float (some x) => .ok x
  | _ => .error .unreadable

/-- A whole number from zero up to, and without, `limit`. -/
def natBelow (limit : Nat) : Value → Decoded Nat
  | .integer (some n) => if 0 ≤ n ∧ n < limit then .ok n.toNat else .error .unreadable
  | _ => .error .unreadable

/-- A value that is passed over. Its numbers must still have values, and its whole
    numbers must fit. -/
def passOver (fits : Int → Bool) (v : Value) : Decoded Unit :=
  if v.isSound fits then .ok () else .error .unreadable

/-! ### Records

A record is decoded into `β` field by field, each field by a function that puts what it
reads into place. -/

abbrev Fields (β : Type) := List (String × (β → Value → Decoded β))

/-- A field that is put in place by `put`. -/
def field {β γ : Type} (name : String) (read : Value → Decoded γ) (put : β → γ → β) :
    String × (β → Value → Decoded β) :=
  (name, fun record v => (read v).map (put record))

def inKeyOrder (entries : Entries) : Entries :=
  entries.mergeSort fun p q => (compare p.1 q.1).isLE

def visit {β : Type} (fits : Int → Bool) (fields : Fields β) (record : β) (entries : Entries) :
    Decoded β :=
  (inKeyOrder entries).foldlM
    (fun record (key, v) =>
      match fields.lookup key with
      | some read => read record v
      | none => (passOver fits v).map fun _ => record)
    record

/-- A record, written as a table or as an array. A date is a record of a kind of its own,
    without any of the entries that are wanted here. -/
def record {β : Type} (fields : Fields β) (blank : β) : Value → Decoded β
  | .table _ entries => visit Value.fitsDoubleWord fields blank entries
  | .array _ items =>
    (fields.zip items).foldlM (fun record ((_, read), v) => read record v) blank
  | .dateTime _ => .ok blank
  | _ => .error .unreadable

def required {γ : Type} (name : String) : Option γ → Decoded γ
  | some x => .ok x
  | none => .error (.missingEntry name)

/-- An entry of a record in an array of entries that must be there. A record that is too
    short has no name for it. -/
def requiredIn {γ : Type} (v : Value) (name : String) : Option γ → Decoded γ
  | some x => .ok x
  | none =>
    match v with
    | .array _ _ => .error .unreadable
    | _ => .error (.missingEntry name)

/-! ### The parts of a setup -/

/-- A position. Axes without an entry stand at zero. -/
def position : Value → Decoded (Position Float) :=
  record
    [field "x" float fun p x => { p with x },
     field "y" float fun p y => { p with y },
     field "z" float fun p z => { p with z },
     field "a" float fun p a => { p with a },
     field "b" float fun p b => { p with b }]
    .zero

def box (v : Value) : Decoded (Box Float) := do
  let corners ← record
    [field "min" position fun (c : Option (Position Float) × _) p => (some p, c.2),
     field "max" position fun c p => (c.1, some p)]
    (none, none) v
  return ⟨← requiredIn v "min" corners.1, ← requiredIn v "max" corners.2⟩

/-- Parameters whose rapid feed may be missing. -/
abbrev PartialParameters := Option Float × Parameters Float

def parameterFields : Fields PartialParameters :=
  [field "rapid_feed" float fun p x => (some x, { p.2 with rapidFeed := x }),
   field "arc_radius_tolerance" float fun p x => (p.1, { p.2 with arcRadiusTolerance := x }),
   field "full_circle_tolerance" float fun p x => (p.1, { p.2 with fullCircleTolerance := x }),
   field "max_lines" (natBelow Value.wordLimit) fun p n => (p.1, { p.2 with maxLines := some n }),
   field "travel_limits" box fun p b => (p.1, { p.2 with travelLimits := some b })]

def parameters (v : Value) : Decoded (Parameters Float) := do
  let (feed, parameters) ← record parameterFields (none, .ofRapidFeed 0.0) v
  let _ ← requiredIn v "rapid_feed" feed
  return parameters

/-- The work offsets. Names are told apart without regard to case. -/
def workOffsets : Value → Decoded (WorkOffsets Float)
  | .table _ entries => do
    WorkOffsets.ofEntries
      (← (inKeyOrder entries).mapM fun (name, v) => return (name, ← position v))
  | _ => .error .unreadable

/-- The size of a tool, among the other entries of a row. -/
def toolOffset (entries : Entries) : Decoded (ToolOffset Float) := do
  let sizes := entries.filter fun entry => entry.1 == "geometry" || entry.1 == "wear"
  let (geometry, wear) ← visit Value.fitsWord
    [field "geometry" float fun (o : Option Float × Float) x => (some x, o.2),
     field "wear" float fun o x => (o.1, x)]
    (none, 0.0) sizes
  return ⟨← required "geometry" geometry, wear⟩

/-- A row of a table of tool offsets. All of its entries are looked at for the register,
    and only then for the size. Until then they are kept, in words of 64 bits. -/
def toolRow : Value → Decoded (Nat × ToolOffset Float)
  | .table _ entries => do
    let register ← visit Value.fitsWord
      [field "register" (natBelow (registerLimit + 1)) fun _ n => some n] none entries
    return (← required "register" register, ← toolOffset entries)
  | .dateTime _ => .error (.missingEntry "register")
  | _ => .error .unreadable

def toolRows : Value → Decoded (List (Nat × ToolOffset Float))
  | .array _ items => items.mapM toolRow
  | _ => .error .unreadable

def toolOffsets (v : Value) : Decoded (ToolOffsets Float) := do
  let (lengths, diameters) ← record
    [field "length" toolRows fun rows new => (new, rows.2),
     field "diameter" toolRows fun rows new => (rows.1, new)]
    ([], []) v
  ToolOffsets.ofRows lengths diameters

def setup (v : Value) : Decoded (Setup Float) := do
  let (machine, offsets) ← record
    [field "machine" parameters fun (s : Option (Parameters Float) × Offsets Float) p =>
      (some p, s.2),
     field "work_offsets" workOffsets fun s work => (s.1, { s.2 with work }),
     field "tool_offsets" toolOffsets fun s tool => (s.1, { s.2 with tool })]
    (none, .empty) v
  return ⟨← required "machine" machine, offsets⟩

def documentTable (text : String) : Decoded Value :=
  match document text with
  | .ok entries => .ok (.table .header entries)
  | .error .malformed => .error .unreadable
  | .error .longKey => .error .longKey

end Decode

/-- The parameters in a document, which must make sense. -/
def Parameters.ofDocument (text : String) : Decoded (Parameters Float) := do
  let parameters ← Decode.parameters (← Decode.documentTable text)
  parameters.check
  return parameters

/-- The setup in a document, whose parameters must make sense. -/
def Setup.ofDocument (text : String) : Decoded (Setup Float) := do
  let setup ← Decode.setup (← Decode.documentTable text)
  setup.machine.check
  return setup

end NumericalControl
