/-
  NumericalControl/Proofs/Table.lean
  ==================================
  **Tables, and rows taken one by one.**  The rows of a table are exactly what it says of
  its keys, and no key has two rows.  So a table is determined by what it says
  (`Table.ext_get?`).

  A table is read from rows that are taken in turn, and a row can be refused in view of the
  rows before it.  Then the first row at fault ends the reading, and without one all rows
  are taken (`Intake.foldlM_eq_error_iff`, `Intake.exists_foldlM_eq_ok`).
-/
import Mathlib.Data.List.Induction
import Mathlib.Data.List.Nodup
import NumericalControl.Table

namespace NumericalControl

/-! ### What a table says -/

namespace Table

variable {κ β : Type} [Ord κ] [Std.TransOrd κ] [Std.LawfulEqOrd κ]

omit [Std.TransOrd κ] in
theorem pairwise_ne (t : Table κ β) : t.rows.Pairwise fun p q => p.1 ≠ q.1 :=
  t.ascending.imp fun less same => by simp [same] at less

omit [Std.TransOrd κ] in
theorem nodup_keys (t : Table κ β) : (t.rows.map Prod.fst).Nodup :=
  List.pairwise_map.mpr t.pairwise_ne

section

variable [DecidableEq κ]

omit [Std.TransOrd κ] in
theorem get?_eq_some_iff {t : Table κ β} {key : κ} {value : β} :
    t.get? key = some value ↔ (key, value) ∈ t.rows := by
  have distinct := t.pairwise_ne
  unfold get?
  generalize t.rows = rows at distinct
  induction rows with
  | nil => simp
  | cons row rest ih =>
    obtain ⟨other, stored⟩ := row
    obtain ⟨fresh, distinct⟩ := List.pairwise_cons.mp distinct
    rw [List.lookup_cons]
    split
    · rename_i same
      obtain rfl : key = other := eq_of_beq same
      have gone : (key, value) ∉ rest := fun mem => fresh _ mem rfl
      simp [gone, eq_comm]
    · rename_i differ
      have differ : key ≠ other := ne_of_beq_false differ
      simp [ih distinct, differ]

/-- **A table is determined by what it says of each key.** -/
theorem ext_get? {t u : Table κ β} (h : ∀ key, t.get? key = u.get? key) : t = u := by
  have same : t.rows.Perm u.rows := by
    refine (List.perm_ext_iff_of_nodup t.nodup_keys.of_map u.nodup_keys.of_map).mpr ?_
    rintro ⟨key, value⟩
    rw [← get?_eq_some_iff, ← get?_eq_some_iff, h]
  have rows : t.rows = u.rows := by
    refine same.eq_of_pairwise (fun p q _ _ less greater => ?_) t.ascending u.ascending
    exact absurd (Std.TransCmp.lt_trans less greater) (by simp)
  cases t
  cases u
  cases rows
  rfl

end

end Table

/-! ### Rows taken in turn -/

section

variable {σ ρ ε : Type}

/-- The last row of a kind is the row added last, if it is of that kind. -/
theorem getLast?_filter_concat (kind : ρ → Prop) [DecidablePred kind] (rows : List ρ)
    (row : ρ) : ((rows ++ [row]).filter kind).getLast? =
      if kind row then some row else (rows.filter kind).getLast? := by
  rw [List.filter_append, List.getLast?_append]
  by_cases same : kind row <;> simp [same]

/-- No row is at fault in view of the rows before it. -/
def Faultless (fault? : List ρ → ρ → Option ε) (rows : List ρ) : Prop :=
  ∀ earlier row later, rows = earlier ++ row :: later → fault? earlier row = none

/-- The fault of the first row that is at fault. -/
def IsFirstFault (fault? : List ρ → ρ → Option ε) (rows : List ρ) (fault : ε) : Prop :=
  ∃ earlier row later, rows = earlier ++ row :: later ∧ Faultless fault? earlier ∧
    fault? earlier row = some fault

/-- Steps that take rows: `holds s rows` says that `s` is what the rows come to. -/
structure Intake (fault? : List ρ → ρ → Option ε) (step : σ → ρ → Except ε σ)
    (holds : σ → List ρ → Prop) : Prop where
  takes : ∀ s earlier row, holds s earlier → fault? earlier row = none →
    ∃ next, step s row = .ok next ∧ holds next (earlier ++ [row])
  refuses : ∀ s earlier row fault, holds s earlier → fault? earlier row = some fault →
    step s row = .error fault

variable {fault? : List ρ → ρ → Option ε}

theorem faultless_nil : Faultless fault? [] := fun _ _ _ split => by simp at split

theorem faultless_concat {rows : List ρ} {row : ρ} :
    Faultless fault? (rows ++ [row]) ↔ Faultless fault? rows ∧ fault? rows row = none := by
  constructor
  · intro all
    refine ⟨fun earlier other later split => ?_, all rows row [] rfl⟩
    exact all earlier other (later ++ [row]) (by simp [split])
  · rintro ⟨before, last⟩ earlier other later split
    -- the row that is looked at is the last one, or is among those before it
    rcases List.eq_nil_or_concat later with rfl | ⟨inside, final, rfl⟩
    · obtain ⟨rfl, same⟩ := List.append_inj' split rfl
      obtain rfl := List.singleton_inj.mp same
      exact last
    · have split : rows ++ [row] = (earlier ++ other :: inside) ++ [final] := by simpa using split
      exact before earlier other inside (List.append_inj' split rfl).1

theorem IsFirstFault.concat {rows : List ρ} {fault : ε} (h : IsFirstFault fault? rows fault)
    (row : ρ) : IsFirstFault fault? (rows ++ [row]) fault := by
  obtain ⟨earlier, first, later, rfl, clean, found⟩ := h
  exact ⟨earlier, first, later ++ [row], by simp, clean, found⟩

theorem IsFirstFault.not_faultless {rows : List ρ} {fault : ε}
    (h : IsFirstFault fault? rows fault) : ¬Faultless fault? rows := by
  obtain ⟨earlier, row, later, split, -, found⟩ := h
  intro clean
  rw [clean earlier row later split] at found
  cases found

theorem faultless_or_isFirstFault (fault? : List ρ → ρ → Option ε) (rows : List ρ) :
    Faultless fault? rows ∨ ∃ fault, IsFirstFault fault? rows fault := by
  induction rows using List.reverseRecOn with
  | nil => exact .inl faultless_nil
  | append_singleton rows row ih =>
    rcases ih with clean | ⟨fault, first⟩
    · rcases found : fault? rows row with _ | fault
      · exact .inl (faultless_concat.mpr ⟨clean, found⟩)
      · exact .inr ⟨fault, rows, row, [], rfl, clean, found⟩
    · exact .inr ⟨fault, first.concat row⟩

namespace Intake

variable {step : σ → ρ → Except ε σ} {holds : σ → List ρ → Prop} {start : σ}

theorem foldlM_behind {earlier : List ρ} {last : σ} (run : earlier.foldlM step start = .ok last)
    (later : List ρ) : (earlier ++ later).foldlM step start = later.foldlM step last := by
  rw [List.foldlM_append, run]
  rfl

/-- **Rows without a fault are all taken.** -/
theorem exists_foldlM_eq_ok (intake : Intake fault? step holds) (empty : holds start [])
    {rows : List ρ} (clean : Faultless fault? rows) :
    ∃ last, rows.foldlM step start = .ok last ∧ holds last rows := by
  induction rows using List.reverseRecOn with
  | nil => exact ⟨start, rfl, empty⟩
  | append_singleton rows row ih =>
    obtain ⟨before, unfaulted⟩ := faultless_concat.mp clean
    obtain ⟨last, run, held⟩ := ih before
    obtain ⟨next, taken, held⟩ := intake.takes last rows row held unfaulted
    refine ⟨next, ?_, held⟩
    rw [foldlM_behind run, List.foldlM_cons, taken]
    rfl

/-- The first row at fault ends the reading. -/
theorem foldlM_eq_error (intake : Intake fault? step holds) (empty : holds start [])
    {rows : List ρ} {fault : ε} (first : IsFirstFault fault? rows fault) :
    rows.foldlM step start = .error fault := by
  obtain ⟨earlier, row, later, rfl, clean, found⟩ := first
  obtain ⟨last, run, held⟩ := intake.exists_foldlM_eq_ok empty clean
  rw [foldlM_behind run, List.foldlM_cons, intake.refuses last earlier row fault held found]
  rfl

theorem foldlM_eq_error_iff (intake : Intake fault? step holds) (empty : holds start [])
    {rows : List ρ} {fault : ε} :
    rows.foldlM step start = .error fault ↔ IsFirstFault fault? rows fault := by
  refine ⟨fun run => ?_, intake.foldlM_eq_error empty⟩
  rcases faultless_or_isFirstFault fault? rows with clean | ⟨other, first⟩
  · obtain ⟨last, taken, -⟩ := intake.exists_foldlM_eq_ok empty clean
    cases taken.symm.trans run
  · cases (intake.foldlM_eq_error empty first).symm.trans run
    exact first

/-- What is read is what the rows come to, and none of them was at fault. -/
theorem of_foldlM_eq_ok (intake : Intake fault? step holds) (empty : holds start [])
    {rows : List ρ} {last : σ} (run : rows.foldlM step start = .ok last) :
    Faultless fault? rows ∧ holds last rows := by
  rcases faultless_or_isFirstFault fault? rows with clean | ⟨other, first⟩
  · obtain ⟨reached, taken, held⟩ := intake.exists_foldlM_eq_ok empty clean
    cases taken.symm.trans run
    exact ⟨clean, held⟩
  · cases (intake.foldlM_eq_error empty first).symm.trans run

end Intake

end

end NumericalControl
