/-
  NumericalControl/Proofs/Offset/Tool.lean
  ========================================
  **Tool offsets and their rows.**  A table is read from rows that number registers above
  zero, each once.  The first row that does not ends the reading: its register is reserved,
  or a row before it has the same.  Both kinds of registers are read by the same steps,
  and reading one kind leaves the other alone (`ToolOffsets.intake`).

  A table that was filled by setting registers holds what was last set, and nothing for
  register 0, so its rows fit in a table.  They say of each register what the table says,
  and a table is determined by that: it is read back from its rows
  (`ToolOffsets.ofRows_rows`).
-/
import NumericalControl.Offset.Tool
import NumericalControl.Proofs.Table

namespace NumericalControl

namespace ToolOffsets

variable {α : Type}

/-! ### Rows -/

/-- Rows that fit in a table. -/
structure WellNumbered (rows : List (Nat × ToolOffset α)) : Prop where
  /-- Register 0 has no row. -/
  ne_zero : ∀ row ∈ rows, row.1 ≠ 0
  /-- No register has two rows. -/
  distinct : rows.Pairwise fun p q => p.1 ≠ q.1

/-- What is wrong with a row behind the rows before it. -/
def rowFault? (kind : RegisterKind) (earlier : List (Nat × ToolOffset α))
    (row : Nat × ToolOffset α) : Option (SetupFault α) :=
  -- register 0 is never repeated, since the first row for it ends the reading
  if row.1 ∈ earlier.map Prod.fst then some (.repeatedRegister kind row.1)
  else if row.1 = 0 then some (.reservedRegister kind)
  else none

theorem rowFault?_eq_none_iff {kind : RegisterKind} {earlier : List (Nat × ToolOffset α)}
    {row : Nat × ToolOffset α} :
    rowFault? kind earlier row = none ↔ row.1 ∉ earlier.map Prod.fst ∧ row.1 ≠ 0 := by
  unfold rowFault?
  split
  · rename_i repeated
    exact iff_of_false nofun fun both => both.1 repeated
  · rename_i fresh
    split
    · rename_i zero
      exact iff_of_false nofun fun both => both.2 zero
    · rename_i nonzero
      exact iff_of_true rfl ⟨fresh, nonzero⟩

theorem wellNumbered_concat {rows : List (Nat × ToolOffset α)} {row : Nat × ToolOffset α} :
    WellNumbered (rows ++ [row]) ↔
      WellNumbered rows ∧ row.1 ∉ rows.map Prod.fst ∧ row.1 ≠ 0 := by
  constructor
  · rintro ⟨set, distinct⟩
    obtain ⟨inside, -, across⟩ := List.pairwise_append.mp distinct
    refine ⟨⟨fun other mem => set other (List.mem_append_left _ mem), inside⟩, fun mem => ?_,
      set row List.mem_concat_self⟩
    obtain ⟨other, mem, same⟩ := List.mem_map.mp mem
    exact across other mem row (List.mem_singleton_self row) same
  · rintro ⟨⟨set, distinct⟩, fresh, nonzero⟩
    refine ⟨fun other mem => ?_, List.pairwise_append.mpr
      ⟨distinct, List.pairwise_singleton _ _, fun other mem last single => ?_⟩⟩
    · rcases List.mem_append.mp mem with mem | mem
      · exact set other mem
      · rwa [List.mem_singleton.mp mem]
    · rw [List.mem_singleton.mp single]
      exact fun same => fresh (List.mem_map.mpr ⟨other, mem, same⟩)

/-- **Rows fit in a table exactly when none of them is at fault.** -/
theorem faultless_iff {kind : RegisterKind} {rows : List (Nat × ToolOffset α)} :
    Faultless (rowFault? kind) rows ↔ WellNumbered rows := by
  induction rows using List.reverseRecOn with
  | nil => exact iff_of_true faultless_nil ⟨List.forall_mem_nil _, .nil⟩
  | append_singleton rows row ih =>
    rw [faultless_concat, wellNumbered_concat, ih, rowFault?_eq_none_iff]

/-! ### Tables from rows -/

/-- What comes of a table when rows of one kind are added: they are what it says of that
    kind, and what it says of the other kind stays. -/
structure Holds (base : ToolOffsets α) (kind : RegisterKind) (offsets : ToolOffsets α)
    (rows : List (Nat × ToolOffset α)) : Prop where
  own : ∀ register offset,
    offsets.get? kind register = some offset ↔ (register, offset) ∈ rows
  other : ∀ other, other ≠ kind → ∀ register,
    offsets.get? other register = base.get? other register

theorem set_of_ne_zero (offsets : ToolOffsets α) (kind : RegisterKind) {register : Nat}
    (nonzero : register ≠ 0) (offset : ToolOffset α) :
    ∃ next, offsets.set kind register offset = .ok next := by
  unfold set
  rw [if_neg nonzero]
  exact ⟨_, rfl⟩

theorem set_zero (offsets : ToolOffsets α) (kind : RegisterKind) (offset : ToolOffset α) :
    offsets.set kind 0 offset = .error (.reservedRegister kind) := rfl

theorem Holds.isSome_iff {base offsets : ToolOffsets α} {kind : RegisterKind}
    {rows : List (Nat × ToolOffset α)} (holds : Holds base kind offsets rows) (register : Nat) :
    (offsets.get? kind register).isSome ↔ register ∈ rows.map Prod.fst := by
  simp [Option.isSome_iff_exists, holds.own]

theorem Holds.concat {base offsets next : ToolOffsets α} {kind : RegisterKind}
    {rows : List (Nat × ToolOffset α)} {register : Nat} {offset : ToolOffset α}
    (holds : Holds base kind offsets rows) (fresh : register ∉ rows.map Prod.fst)
    (set : offsets.set kind register offset = .ok next) :
    Holds base kind next (rows ++ [(register, offset)]) := by
  constructor
  case own =>
    intro number value
    rw [get?_of_set set, List.mem_append, List.mem_singleton]
    by_cases same : number = register
    · subst same
      have gone : (number, value) ∉ rows := fun mem => fresh (List.mem_map_of_mem mem)
      simp [gone, eq_comm]
    · simp [same, holds.own]
  case other =>
    intro other differ number
    rw [get?_of_set set, if_neg fun same => differ same.1, holds.other other differ]

/-- **One row is taken or refused.** -/
theorem intake (base : ToolOffsets α) (kind : RegisterKind) :
    Intake (rowFault? kind)
      (fun (offsets : ToolOffsets α) (register, offset) =>
        if (offsets.get? kind register).isSome then .error (.repeatedRegister kind register)
        else offsets.set kind register offset)
      (Holds base kind) := by
  constructor
  case takes =>
    rintro offsets earlier ⟨register, offset⟩ holds unfaulted
    obtain ⟨fresh, nonzero⟩ := rowFault?_eq_none_iff.mp unfaulted
    obtain ⟨next, set⟩ := offsets.set_of_ne_zero kind nonzero offset
    refine ⟨next, ?_, holds.concat fresh set⟩
    exact (if_neg fun known => fresh ((holds.isSome_iff register).mp known)).trans set
  case refuses =>
    rintro offsets earlier ⟨register, offset⟩ fault holds found
    unfold rowFault? at found
    dsimp only at found ⊢
    split at found
    · rename_i repeated
      rw [if_pos ((holds.isSome_iff register).mpr repeated)]
      exact congrArg Except.error (Option.some.inj found)
    · rename_i fresh
      rw [if_neg fun known => fresh ((holds.isSome_iff register).mp known)]
      split at found
      · rename_i zero
        rw [zero, set_zero]
        exact congrArg Except.error (Option.some.inj found)
      · cases found

section

variable {base offsets : ToolOffsets α} {kind : RegisterKind}
  {rows : List (Nat × ToolOffset α)}

theorem holds_nil (free : ∀ register, base.get? kind register = none) :
    Holds base kind base [] := by
  constructor
  case own => simp [free]
  case other => exact fun _ _ _ => rfl

theorem exists_addRows (free : ∀ register, base.get? kind register = none)
    (fit : WellNumbered rows) :
    ∃ last, addRows kind base rows = .ok last ∧ Holds base kind last rows :=
  (intake base kind).exists_foldlM_eq_ok (holds_nil free) (faultless_iff.mpr fit)

theorem of_addRows (free : ∀ register, base.get? kind register = none)
    (run : addRows kind base rows = .ok offsets) :
    WellNumbered rows ∧ Holds base kind offsets rows := by
  obtain ⟨clean, holds⟩ := (intake base kind).of_foldlM_eq_ok (holds_nil free) run
  exact ⟨faultless_iff.mp clean, holds⟩

theorem addRows_eq_error_iff (free : ∀ register, base.get? kind register = none)
    {fault : SetupFault α} :
    addRows kind base rows = .error fault ↔ IsFirstFault (rowFault? kind) rows fault :=
  (intake base kind).foldlM_eq_error_iff (holds_nil free)

end

/-- A table that was read from rows. -/
structure IsReadFrom (offsets : ToolOffsets α) (lengths diameters : List (Nat × ToolOffset α)) :
    Prop where
  lengths : ∀ register offset,
    offsets.get? .length register = some offset ↔ (register, offset) ∈ lengths
  diameters : ∀ register offset,
    offsets.get? .diameter register = some offset ↔ (register, offset) ∈ diameters

section

variable {lengths diameters : List (Nat × ToolOffset α)}

theorem get?_empty (kind : RegisterKind) (register : Nat) :
    (empty : ToolOffsets α).get? kind register = none := by
  cases kind <;> rfl

/-- Reading lengths sets no diameter. -/
theorem Holds.free {offsets : ToolOffsets α} (holds : Holds empty .length offsets lengths)
    (register : Nat) : offsets.get? .diameter register = none :=
  (holds.other .diameter nofun register).trans (get?_empty .diameter register)

theorem ofRows_of_error {fault : SetupFault α}
    (run : addRows .length empty lengths = .error fault) :
    ofRows lengths diameters = .error fault := by
  unfold ofRows
  rw [run]
  rfl

theorem ofRows_of_ok {offsets : ToolOffsets α}
    (run : addRows .length empty lengths = .ok offsets) :
    ofRows lengths diameters = addRows .diameter offsets diameters := by
  unfold ofRows
  rw [run]
  rfl

theorem exists_ofRows (fitLengths : WellNumbered lengths) (fitDiameters : WellNumbered diameters) :
    ∃ offsets, ofRows lengths diameters = .ok offsets ∧ offsets.IsReadFrom lengths diameters := by
  obtain ⟨first, run, held⟩ := exists_addRows (get?_empty .length) fitLengths
  obtain ⟨last, behind, holds⟩ := exists_addRows held.free fitDiameters
  refine ⟨last, (ofRows_of_ok run).trans behind, fun register offset => ?_, holds.own⟩
  rw [holds.other .length nofun, held.own]

theorem of_ofRows {offsets : ToolOffsets α} (read : ofRows lengths diameters = .ok offsets) :
    WellNumbered lengths ∧ WellNumbered diameters := by
  rcases run : addRows .length empty lengths with fault | first
  · cases (ofRows_of_error run).symm.trans read
  · obtain ⟨fit, held⟩ := of_addRows (get?_empty .length) run
    exact ⟨fit, (of_addRows held.free ((ofRows_of_ok run).symm.trans read)).1⟩

theorem ofRows_eq_error_iff {fault : SetupFault α} :
    ofRows lengths diameters = .error fault ↔
      IsFirstFault (rowFault? .length) lengths fault ∨
        WellNumbered lengths ∧ IsFirstFault (rowFault? .diameter) diameters fault := by
  rcases run : addRows .length empty lengths with found | first
  · have lengthFault := (addRows_eq_error_iff (get?_empty .length)).mp run
    have unfit : ¬WellNumbered lengths := fun fit =>
      lengthFault.not_faultless (faultless_iff.mpr fit)
    rw [ofRows_of_error run, ← run, addRows_eq_error_iff (get?_empty .length)]
    simp [unfit]
  · obtain ⟨fit, held⟩ := of_addRows (get?_empty .length) run
    have clean : ¬IsFirstFault (rowFault? .length) lengths fault := fun found =>
      found.not_faultless (faultless_iff.mpr fit)
    rw [ofRows_of_ok run, addRows_eq_error_iff held.free]
    simp [fit, clean]

end

/-! ### Tables filled by setting registers -/

/-- A register to be set, and what to. -/
structure Assignment (α : Type) where
  kind : RegisterKind
  register : Nat
  offset : ToolOffset α

/-- Sets a register. When that fails the tables stay as they are. -/
def assign (offsets : ToolOffsets α) (a : Assignment α) : ToolOffsets α :=
  match offsets.set a.kind a.register a.offset with
  | .ok next => next
  | .error _ => offsets

/-- The tables after assignments in turn, empty before the first. -/
def ofAssignments (assignments : List (Assignment α)) : ToolOffsets α :=
  assignments.foldl assign empty

/-- The assignment is for a register, and succeeds. -/
def Assignment.Sets (a : Assignment α) (kind : RegisterKind) (register : Nat) : Prop :=
  a.kind = kind ∧ a.register = register ∧ a.register ≠ 0

instance (a : Assignment α) (kind : RegisterKind) (register : Nat) :
    Decidable (a.Sets kind register) :=
  inferInstanceAs (Decidable (_ ∧ _))

/-- What the last assignment to a register that succeeds sets it to. -/
def lastSet? (assignments : List (Assignment α)) (kind : RegisterKind) (register : Nat) :
    Option (ToolOffset α) :=
  (assignments.filter fun a => a.Sets kind register).getLast?.map Assignment.offset

theorem exists_set_iff (offsets : ToolOffsets α) (kind : RegisterKind) (register : Nat)
    (offset : ToolOffset α) :
    (∃ next, offsets.set kind register offset = .ok next) ↔ register ≠ 0 := by
  refine ⟨?_, fun nonzero => offsets.set_of_ne_zero kind nonzero offset⟩
  rintro ⟨next, set⟩ rfl
  cases (set_zero offsets kind offset).symm.trans set

theorem get?_assign (offsets : ToolOffsets α) (a : Assignment α) (kind : RegisterKind)
    (register : Nat) :
    (offsets.assign a).get? kind register =
      if a.Sets kind register then some a.offset else offsets.get? kind register := by
  unfold assign
  rcases set : offsets.set a.kind a.register a.offset with fault | next
  · have zero : ¬a.register ≠ 0 := fun nonzero => by
      obtain ⟨next, taken⟩ := offsets.set_of_ne_zero a.kind nonzero a.offset
      cases set.symm.trans taken
    exact (if_neg fun sets : a.Sets kind register => zero sets.2.2).symm
  · have nonzero : a.register ≠ 0 := (offsets.exists_set_iff _ _ _).mp ⟨next, set⟩
    dsimp only
    rw [get?_of_set set]
    simp only [Assignment.Sets, nonzero, ne_eq, not_false_eq_true, and_true, eq_comm]

/-- **A register holds what it was last set to.** -/
theorem get?_ofAssignments (assignments : List (Assignment α)) (kind : RegisterKind)
    (register : Nat) :
    (ofAssignments assignments).get? kind register = lastSet? assignments kind register := by
  induction assignments using List.reverseRecOn with
  | nil => exact get?_empty kind register
  | append_singleton earlier a ih =>
    have last : ofAssignments (earlier ++ [a]) = (ofAssignments earlier).assign a :=
      List.foldl_concat ..
    rw [last, get?_assign, ih]
    unfold lastSet?
    rw [getLast?_filter_concat fun b : Assignment α => b.Sets kind register,
      apply_ite (Option.map Assignment.offset)]
    rfl

theorem lastSet?_zero (assignments : List (Assignment α)) (kind : RegisterKind) :
    lastSet? assignments kind 0 = none := by
  have nothing : (assignments.filter fun a => a.Sets kind 0) = [] := by
    refine List.filter_eq_nil_iff.mpr fun a _ sets => ?_
    obtain ⟨-, zero, nonzero⟩ := of_decide_eq_true sets
    exact nonzero zero
  unfold lastSet?
  rw [nothing]
  rfl

/-! ### Rows of a table -/

section

variable {offsets : ToolOffsets α}

theorem get?_eq_some_iff {kind : RegisterKind} {register : Nat} {offset : ToolOffset α} :
    offsets.get? kind register = some offset ↔ (register, offset) ∈ offsets.rows kind :=
  Table.get?_eq_some_iff

theorem ext_get? {other : ToolOffsets α}
    (h : ∀ kind register, offsets.get? kind register = other.get? kind register) :
    offsets = other := by
  obtain ⟨lengths, diameters⟩ := offsets
  obtain ⟨otherLengths, otherDiameters⟩ := other
  rw [show lengths = otherLengths from Table.ext_get? (h .length),
    show diameters = otherDiameters from Table.ext_get? (h .diameter)]

theorem ascending_rows (offsets : ToolOffsets α) (kind : RegisterKind) :
    (offsets.rows kind).Pairwise fun p q => p.1 < q.1 :=
  (offsets.table kind).ascending.imp Nat.compare_eq_lt.mp

theorem wellNumbered_rows {kind : RegisterKind} (zero : offsets.get? kind 0 = none) :
    WellNumbered (offsets.rows kind) := by
  constructor
  case ne_zero =>
    rintro ⟨register, offset⟩ mem rfl
    cases zero.symm.trans (get?_eq_some_iff.mpr mem)
  case distinct => exact (offsets.table kind).pairwise_ne

/-- **Tables are read back from their rows.** -/
theorem ofRows_rows (zero : ∀ kind, offsets.get? kind 0 = none) :
    ofRows (offsets.rows .length) (offsets.rows .diameter) = .ok offsets := by
  obtain ⟨other, read, told⟩ :=
    exists_ofRows (wellNumbered_rows (zero .length)) (wellNumbered_rows (zero .diameter))
  have same : other = offsets := by
    refine ext_get? fun kind register => Option.ext fun offset => ?_
    cases kind with
    | length => exact (told.lengths register offset).trans get?_eq_some_iff.symm
    | diameter => exact (told.diameters register offset).trans get?_eq_some_iff.symm
  rw [read, same]

end

/-! ### Reading and writing -/

/-- What becomes of rows that are read. -/
structure ReadsRows (lengths diameters : List (Nat × ToolOffset α)) : Prop where
  ok_iff : (∃ offsets, ofRows lengths diameters = .ok offsets) ↔
    WellNumbered lengths ∧ WellNumbered diameters
  /-- The first row at fault is reported, and lengths come before diameters. -/
  error_iff : ∀ fault, ofRows lengths diameters = .error fault ↔
    IsFirstFault (rowFault? .length) lengths fault ∨
      WellNumbered lengths ∧ IsFirstFault (rowFault? .diameter) diameters fault
  isReadFrom : ∀ offsets, ofRows lengths diameters = .ok offsets →
    offsets.IsReadFrom lengths diameters

/-- What the tables are after assignments. -/
structure HoldsLastSet (assignments : List (Assignment α)) : Prop where
  /-- An assignment succeeds unless it is for register 0. -/
  sets_iff : ∀ (offsets : ToolOffsets α) (a : Assignment α),
    (∃ next, offsets.set a.kind a.register a.offset = .ok next) ↔ a.register ≠ 0
  ne_zero : ∀ kind, ∀ row ∈ (ofAssignments assignments).rows kind, row.1 ≠ 0
  get?_eq : ∀ kind register,
    (ofAssignments assignments).get? kind register = lastSet? assignments kind register
  ascending : ∀ kind, ((ofAssignments assignments).rows kind).Pairwise fun p q => p.1 < q.1
  readBack : ofRows ((ofAssignments assignments).rows .length)
    ((ofAssignments assignments).rows .diameter) = .ok (ofAssignments assignments)

/-- **Rows and tables of tool offsets say the same.**  Rows are read exactly when they fit,
    and what was set is written as rows that are read back. -/
theorem faithful_rows (lengths diameters : List (Nat × ToolOffset α))
    (assignments : List (Assignment α)) :
    ReadsRows lengths diameters ∧ HoldsLastSet assignments := by
  have zero : ∀ kind, (ofAssignments assignments).get? kind 0 = none := fun kind =>
    (get?_ofAssignments assignments kind 0).trans (lastSet?_zero assignments kind)
  constructor
  · constructor
    case ok_iff =>
      constructor
      · rintro ⟨offsets, read⟩
        exact of_ofRows read
      · rintro ⟨fitLengths, fitDiameters⟩
        obtain ⟨offsets, read, -⟩ := exists_ofRows fitLengths fitDiameters
        exact ⟨offsets, read⟩
    case error_iff => exact fun _ => ofRows_eq_error_iff
    case isReadFrom =>
      intro offsets read
      obtain ⟨fitLengths, fitDiameters⟩ := of_ofRows read
      obtain ⟨other, known, told⟩ := exists_ofRows fitLengths fitDiameters
      cases known.symm.trans read
      exact told
  · constructor
    case sets_iff => exact fun offsets a => offsets.exists_set_iff _ _ _
    case ne_zero => exact fun kind => (wellNumbered_rows (zero kind)).ne_zero
    case get?_eq => exact get?_ofAssignments assignments
    case ascending => exact ascending_rows _
    case readBack => exact ofRows_rows zero

end ToolOffsets

end NumericalControl
