/-
  NumericalControl/Proofs/Toolpath/Lines.lean
  ===========================================
  **The lines of a toolpath.**  The commands stand in the order of their lines, so those of
  a line go from the number of commands before it to the number of commands before the next
  one (`line_eq_of_between`).  The first of them is what the search by line gives
  (`firstOfLine_eq`), and looking on for another line ends behind the last
  (`findIdx_other_line`).
-/
import NumericalControl.Toolpath
import NumericalControl.Proofs.Toolpath.Search

namespace NumericalControl.Toolpath

variable {α : Type} {path : Toolpath α} {i line : Nat} {c : Command α}

/-- The command at a place is the first one of its line. -/
def opensLine (path : Toolpath α) (i : Nat) : Bool :=
  path.commands[i]?.any fun c => (path.commands.toList.take i).all fun d => d.line != c.line

/-- The places of the first commands of all lines that move. -/
def lineStarts (path : Toolpath α) : List Nat := (List.range path.size).filter path.opensLine

/-- The lines never go down, and each command knows its place. -/
structure Ordered (path : Toolpath α) : Prop where
  ascending : path.commands.toList.Pairwise fun c d => c.line ≤ d.line
  index : ∀ (i : Nat) (c : Command α), path.commands[i]? = some c → c.index = i

/-- The number of commands before a line. -/
def before (path : Toolpath α) (line : Nat) : Nat :=
  partitionPoint (fun c : Command α => decide (c.line < line)) path.commands

/-! ### Commands and lines -/

theorem lt_size (hc : path.commands[i]? = some c) : i < path.size :=
  (Array.getElem?_eq_some_iff.mp hc).1

theorem exists_command (lt : i < path.size) : ∃ c, path.commands[i]? = some c :=
  ⟨_, Array.getElem?_eq_getElem lt⟩

section

variable (ordered : path.Ordered)
include ordered

theorem lt_before_iff (hc : path.commands[i]? = some c) :
    i < path.before line ↔ c.line < line := by
  rw [before, lt_partitionPoint_iff (partitioned_lt ordered.ascending line), holdsAt_iff]
  simp [hc]

theorem before_le_size (line : Nat) : path.before line ≤ path.size := by
  refine Nat.le_of_not_lt fun lt => ?_
  rw [before, lt_partitionPoint_iff (partitioned_lt ordered.ascending line), holdsAt_iff] at lt
  obtain ⟨c, hc, -⟩ := lt
  exact Nat.lt_irrefl _ (lt_size hc)

theorem before_line_le (hc : path.commands[i]? = some c) :
    path.before c.line ≤ i :=
  Nat.le_of_not_lt fun lt => Nat.lt_irrefl _ ((lt_before_iff ordered hc).mp lt)

theorem lt_before_succ (hc : path.commands[i]? = some c) :
    i < path.before (c.line + 1) :=
  (lt_before_iff ordered hc).mpr (Nat.lt_succ_self _)

/-- Between the two numbers stands the line. -/
theorem line_eq_of_between (hc : path.commands[i]? = some c)
    (le : path.before line ≤ i) (lt : i < path.before (line + 1)) : c.line = line := by
  have above := (not_congr (lt_before_iff ordered hc)).mp (Nat.not_lt.mpr le)
  have below := (lt_before_iff ordered hc).mp lt
  omega

/-- **The first command of a line stands behind those before the line.** -/
theorem exists_first (hc : path.commands[i]? = some c) :
    ∃ d, path.commands[path.before c.line]? = some d ∧ d.line = c.line := by
  have le := before_line_le ordered hc
  obtain ⟨d, hd⟩ := exists_command (Nat.lt_of_le_of_lt le (lt_size hc))
  have lt := Nat.lt_of_le_of_lt le (lt_before_succ ordered hc)
  exact ⟨d, hd, line_eq_of_between ordered hd (Nat.le_refl _) lt⟩

theorem firstOfLine_eq (hc : path.commands[i]? = some c) :
    path.firstOfLine? c.line = some (path.before c.line) := by
  obtain ⟨d, hd, same⟩ := exists_first ordered hc
  have index := ordered.index _ d hd
  rw [before] at hd
  simp only [firstOfLine?, before, hd, Option.filter_some, same, beq_self_eq_true, if_true,
    Option.map_some, index]

theorem opensLine_iff (hc : path.commands[i]? = some c) :
    path.opensLine i = true ↔ path.before c.line = i := by
  simp only [opensLine, hc, Option.any_some, List.all_eq_true, bne_iff_ne, ne_eq]
  constructor
  · intro fresh
    refine Nat.le_antisymm (before_line_le ordered hc) (Nat.le_of_not_lt fun lt => ?_)
    -- otherwise the first command of the line stands in front
    obtain ⟨d, hd, same⟩ := exists_first ordered hc
    rw [← Array.getElem?_toList] at hd
    exact fresh d (List.mem_of_getElem? (List.getElem?_take_of_lt lt ▸ hd)) same
  · intro starts d mem same
    obtain ⟨k, hk⟩ := List.mem_iff_getElem?.mp mem
    obtain ⟨hd, lt⟩ : path.commands[k]? = some d ∧ k < i := by
      simpa [List.getElem?_take, and_comm] using hk
    rw [← starts, lt_before_iff ordered hd, same] at lt
    exact Nat.lt_irrefl _ lt

theorem mem_lineStarts :
    i ∈ path.lineStarts ↔ ∃ c, path.commands[i]? = some c ∧ path.before c.line = i := by
  rw [lineStarts, List.mem_filter, List.mem_range]
  constructor
  · rintro ⟨lt, opens⟩
    obtain ⟨c, hc⟩ := exists_command lt
    exact ⟨c, hc, (opensLine_iff ordered hc).mp opens⟩
  · rintro ⟨c, hc, starts⟩
    exact ⟨lt_size hc, (opensLine_iff ordered hc).mpr starts⟩

end

/-! ### The first commands of lines -/

/-- The first commands of lines from a place on. -/
def startsFrom (path : Toolpath α) (i : Nat) : List Nat :=
  (List.range' i (path.size - i)).filter path.opensLine

theorem startsFrom_zero (path : Toolpath α) : path.startsFrom 0 = path.lineStarts := by
  rw [startsFrom, lineStarts, List.range_eq_range', Nat.sub_zero]

theorem startsFrom_size (path : Toolpath α) : path.startsFrom path.size = [] := by
  rw [startsFrom, Nat.sub_self]
  rfl

section

variable (ordered : path.Ordered)
include ordered

/-- **Behind the first command of a line comes that of the next line.** -/
theorem startsFrom_first (hc : path.commands[i]? = some c)
    (starts : path.before c.line = i) :
    path.startsFrom i = i :: path.startsFrom (path.before (c.line + 1)) := by
  have lt := lt_before_succ ordered hc
  have le := before_le_size ordered (c.line + 1)
  have opens : path.opensLine i = true := (opensLine_iff ordered hc).mpr starts
  generalize hj : path.before (c.line + 1) = j at lt le
  have places : List.range' i (path.size - i) =
      i :: (List.range' (i + 1) (j - (i + 1)) ++ List.range' j (path.size - j)) := by
    have count : path.size - i = (j - (i + 1)) + (path.size - j) + 1 := by omega
    have rest : i + 1 + (j - (i + 1)) = j := by omega
    rw [count, List.range'_succ, ← List.range'_append_1, rest]
  have own : (List.range' (i + 1) (j - (i + 1))).filter path.opensLine = [] := by
    rw [List.filter_eq_nil_iff]
    intro k mem opens'
    obtain ⟨above, below⟩ := List.mem_range'_1.mp mem
    obtain ⟨d, hd⟩ : ∃ d, path.commands[k]? = some d := exists_command (by omega)
    have same : d.line = c.line := line_eq_of_between ordered hd (by omega) (by omega)
    rw [opensLine_iff ordered hd, same] at opens'
    omega
  rw [startsFrom, places, List.filter_cons_of_pos opens, List.filter_append, own, List.nil_append]
  rfl

/-- Behind the commands before a line stands the first command of a line, or nothing. -/
theorem before_starts (line : Nat) :
    path.before line ∈ path.lineStarts ∨ path.before line = path.size := by
  rcases Nat.eq_or_lt_of_le (before_le_size ordered line) with last | inside
  · exact .inr last
  · obtain ⟨d, hd⟩ := exists_command inside
    refine .inl ((mem_lineStarts ordered).mpr ⟨d, hd, ?_⟩)
    refine Nat.le_antisymm (before_line_le ordered hd) (Nat.le_of_not_lt fun lt => ?_)
    obtain ⟨e, he, same⟩ := exists_first ordered hd
    have early := (lt_before_iff ordered he).mp lt
    have late := (not_congr (lt_before_iff ordered hd)).mp (Nat.lt_irrefl _)
    omega

/-- What stands in front of the first command of a line, or of the end, is the last of its
    own line. -/
theorem before_next_eq (hc : path.commands[i]? = some c)
    (starts : i + 1 ∈ path.lineStarts ∨ i + 1 = path.size) :
    path.before (c.line + 1) = i + 1 := by
  have lt := lt_before_succ ordered hc
  refine Nat.le_antisymm ?_ lt
  rcases starts with starts | last
  · obtain ⟨d, hd, starts⟩ := (mem_lineStarts ordered).mp starts
    refine Nat.le_of_not_lt fun inside => ?_
    have same : d.line = c.line :=
      line_eq_of_between ordered hd (by have := before_line_le ordered hc; omega) inside
    have own := before_line_le ordered hc
    rw [← same, starts] at own
    omega
  · rw [last]
    exact before_le_size ordered _

/-- **The search from the front finds the end of the line.** -/
theorem findIdx_other_line (hc : path.commands[i]? = some c) :
    (((path.commands.toList.drop (i + 1)).findIdx? (·.line != c.line)).map (i + 1 + ·)).getD
      path.size = path.before (c.line + 1) := by
  have lt := lt_before_succ ordered hc
  have le := before_le_size ordered (c.line + 1)
  generalize hj : path.before (c.line + 1) = j at lt le
  -- behind the place the lines are other ones from the end of the line on
  have other : ∀ k d, (path.commands.toList.drop (i + 1))[k]? = some d →
      (d.line ≠ c.line ↔ j ≤ i + 1 + k) := by
    intro k d hd
    rw [List.getElem?_drop, Array.getElem?_toList] at hd
    have next : _ < path.before (c.line + 1) ↔ _ := lt_before_iff ordered hd
    have neverDown := number_le_number ordered.ascending (by omega) hc hd
    omega
  have reached (inside : j < path.size) :
      ∃ d, (path.commands.toList.drop (i + 1))[j - (i + 1)]? = some d := by
    obtain ⟨d, hd⟩ := exists_command inside
    refine ⟨d, ?_⟩
    rw [List.getElem?_drop, Array.getElem?_toList, Nat.add_sub_cancel' lt]
    exact hd
  cases found : (path.commands.toList.drop (i + 1)).findIdx? (·.line != c.line) with
  | none =>
    refine Nat.le_antisymm (Nat.le_of_not_lt fun inside => ?_) le
    obtain ⟨d, hd⟩ := reached inside
    have same := List.findIdx?_eq_none_iff.mp found d (List.mem_of_getElem? hd)
    rw [bne_eq_false_iff_eq] at same
    exact (other _ d hd).mpr (by omega) same
  | some steps =>
    obtain ⟨short, differs, before⟩ := List.findIdx?_eq_some_iff_getElem.mp found
    rw [bne_iff_ne, other steps _ (List.getElem?_eq_getElem short)] at differs
    change i + 1 + steps = j
    refine Nat.le_antisymm (Nat.le_of_not_lt fun earlier => ?_) differs
    have earlier : j - (i + 1) < steps := by omega
    have same := before _ earlier
    rw [bne_iff_ne, other _ _ (List.getElem?_eq_getElem (by omega))] at same
    omega

end

end NumericalControl.Toolpath
