/-
  NumericalControl/Proofs/Playback/Lines.lean
  ===========================================
  **Stepping by lines.**  A step forward goes behind the last command of the line
  (`Cursor.StandsAt.nextLine`), and a step back, from anywhere behind the first command, to
  the first (`Cursor.standsAt_previousLine`).  Both look for places that are given by the
  lines alone, once from the front and once by halving, so they agree on them.

  Hence the steps from the start visit the first command of every line that moves and then
  the end, and a step back undoes a step forward and the other way round
  (`Cursor.stepsByLines_of_build`).  Up to `2 ^ 53` commands the places are exact, and what
  lies between two places is rounded to the right one.
-/
import NumericalControl.Proofs.Playback.Within

namespace NumericalControl

namespace Cursor

variable {path : Toolpath Float} {c : Cursor Float} {i : Nat} {command : Command Float}

/-- A cursor of the toolpath stands at a place. Zero may have either sign. -/
structure StandsAt (c : Cursor Float) (path : Toolpath Float) (i : Nat) : Prop where
  toolpath : c.toolpath = path
  position : Scalar.Same c.position (Scalar.ofNat i)

theorem standsAt_ofIndex (count : path.size < 2 ^ 53) (le : i ≤ path.size) :
    (ofIndex path i).StandsAt path i := by
  have above : (0.0 : Float) ≤ Scalar.ofNat i := Binary64.zero_le_ofNat i
  have below : (Scalar.ofNat i : Float) ≤ Scalar.ofNat path.size :=
    (Binary64.ofNat_le_ofNat (Nat.lt_of_le_of_lt le count) count).mpr le
  have position : (ofIndex path i).position = Scalar.ofNat i := position_ofPosition above below
  have self : (Scalar.ofNat i : Float) ≤ Scalar.ofNat i :=
    Decidable.not_not.mp (OrderedScalar.defined_right above)
  refine ⟨rfl, ?_⟩
  rw [position]
  exact ⟨self, self⟩

/-- At the end there is no step forward. -/
theorem StandsAt.nextLine_end (count : path.size < 2 ^ 53) (stands : c.StandsAt path path.size) :
    c.nextLine = c := by
  obtain ⟨rfl, position⟩ := stands
  have past : c.toolpath.commands[c.toolpath.size]? = none :=
    Array.getElem?_eq_none (Nat.le_refl _)
  rw [Cursor.nextLine, (Binary64.floor_ceil_of_same count position).1]
  simp only [past]

/-! ### Steps -/

section

variable (ordered : path.Ordered) (count : path.size < 2 ^ 53)
include ordered count

/-- **A step forward goes behind the commands of the line.** -/
theorem StandsAt.nextLine (stands : c.StandsAt path i) (hc : path.commands[i]? = some command) :
    c.nextLine.StandsAt path (path.before (command.line + 1)) := by
  have next : c.nextLine = ofIndex path (path.before (command.line + 1)) := by
    have lt := Nat.lt_trans (Toolpath.lt_size hc) count
    have found := Toolpath.findIdx_other_line ordered hc
    have whole := (Binary64.floor_ceil_of_same lt stands.position).1
    simp only [Cursor.nextLine, whole, stands.toolpath, hc]
    split
    · rename_i steps here
      rw [here] at found
      exact congrArg (ofIndex path) found
    · rename_i last
      rw [last] at found
      exact congrArg (ofIndex path) found
  rw [next]
  exact standsAt_ofIndex count (Toolpath.before_le_size ordered _)

/-- **A step back goes to the first command of the line**, from anywhere behind it and not
    behind the line. -/
theorem standsAt_previousLine {line : Nat} (toolpath : c.toolpath = path)
    (behind : path.before line < Scalar.ceil c.position)
    (within : Scalar.ceil c.position ≤ path.before (line + 1)) :
    c.previousLine.StandsAt path (path.before line) := by
  have le := Toolpath.before_le_size ordered (line + 1)
  obtain ⟨k, above⟩ : ∃ k, Scalar.ceil c.position = k + 1 :=
    Nat.exists_eq_succ_of_ne_zero (Nat.ne_zero_of_lt behind)
  obtain ⟨d, hd⟩ : ∃ d, path.commands[k]? = some d := Toolpath.exists_command (by omega)
  have own : d.line = line := Toolpath.line_eq_of_between ordered hd (by omega) (by omega)
  have first : c.previousLine = ofIndex path (path.before d.line) := by
    simp only [previousLine, above, toolpath, hd, Option.bind_some,
      Toolpath.firstOfLine_eq ordered hd, Option.getD_some]
  rw [first, own]
  exact standsAt_ofIndex count (Toolpath.before_le_size ordered _)

theorem StandsAt.previousLine_nextLine (stands : c.StandsAt path i) (starts : i ∈ path.lineStarts) :
    c.nextLine.previousLine.StandsAt path i := by
  obtain ⟨command, hc, rfl⟩ := (Toolpath.mem_lineStarts ordered).mp starts
  have next := stands.nextLine ordered count hc
  have le := Toolpath.before_le_size ordered (command.line + 1)
  have whole := (Binary64.floor_ceil_of_same (Nat.lt_of_le_of_lt le count) next.position).2
  refine standsAt_previousLine ordered count next.toolpath ?_ (Nat.le_of_eq whole)
  rw [whole]
  exact Toolpath.lt_before_succ ordered hc

theorem StandsAt.nextLine_previousLine (stands : c.StandsAt path (i + 1))
    (starts : i + 1 ∈ path.lineStarts ∨ i + 1 = path.size) :
    c.previousLine.nextLine.StandsAt path (i + 1) := by
  have le : i + 1 ≤ path.size := by
    rcases starts with starts | last
    · obtain ⟨d, hd, -⟩ := (Toolpath.mem_lineStarts ordered).mp starts
      exact Nat.le_of_lt (Toolpath.lt_size hd)
    · exact Nat.le_of_eq last
  obtain ⟨command, hc⟩ := Toolpath.exists_command le
  have whole := (Binary64.floor_ceil_of_same (Nat.lt_of_le_of_lt le count) stands.position).2
  have back : c.previousLine.StandsAt path (path.before command.line) := by
    apply standsAt_previousLine ordered count stands.toolpath
    · rw [whole]
      exact Nat.lt_succ_of_le (Toolpath.before_line_le ordered hc)
    · rw [whole]
      exact Toolpath.lt_before_succ ordered hc
  obtain ⟨first, hf, same⟩ := Toolpath.exists_first ordered hc
  have forth := back.nextLine ordered count hf
  rw [same, Toolpath.before_next_eq ordered hc starts] at forth
  exact forth

theorem standsAt_previousLine_inside {k : Nat} {last : Command Float}
    (toolpath : c.toolpath = path) (starts : i ∈ path.lineStarts)
    (hc : path.commands[i]? = some command) (hl : path.commands[k]? = some last)
    (same : last.line = command.line) (above : Scalar.ofNat i < c.position)
    (le : c.position ≤ Scalar.ofNat (k + 1)) : c.previousLine.StandsAt path i := by
  obtain ⟨first, hf, rfl⟩ := (Toolpath.mem_lineStarts ordered).mp starts
  obtain rfl : first = command := Option.some.inj (hf.symm.trans hc)
  have lt := Toolpath.lt_size hc
  have lt' := Toolpath.lt_size hl
  obtain ⟨behind, within⟩ := Binary64.ceil_between above le (by omega) (by omega)
  refine standsAt_previousLine ordered count toolpath behind (Nat.le_trans within ?_)
  rw [← same]
  exact Toolpath.lt_before_succ ordered hl

/-- **The steps from a place visit the lines that start there or behind it**, and then stay
    at the end. -/
theorem StandsAt.iterate_nextLine (k : Nat) (stands : c.StandsAt path i)
    (starts : i ∈ path.lineStarts ∨ i = path.size) :
    (Cursor.nextLine^[k] c).StandsAt path ((path.startsFrom i).getD k path.size) := by
  -- from each line on, since the steps that are left begin at the next one
  induction k generalizing c i with
  | zero =>
    rcases starts with starts | rfl
    · obtain ⟨command, hc, starts⟩ := (Toolpath.mem_lineStarts ordered).mp starts
      rw [Toolpath.startsFrom_first ordered hc starts]
      exact stands
    · rw [Toolpath.startsFrom_size]
      exact stands
  | succ k ih =>
    rw [Function.iterate_succ_apply]
    rcases starts with starts | rfl
    · obtain ⟨command, hc, starts⟩ := (Toolpath.mem_lineStarts ordered).mp starts
      rw [Toolpath.startsFrom_first ordered hc starts]
      exact ih (stands.nextLine ordered count hc) (Toolpath.before_starts ordered _)
    · have stays := stands.nextLine_end count
      rw [Toolpath.startsFrom_size, stays, Function.iterate_fixed stays]
      exact stands

end

/-! ### Toolpaths of programs -/

/-- Stepping by lines is exact and can be undone. -/
structure StepsByLines (path : Toolpath Float) : Prop where
  /-- The steps from the start visit the first command of each line, one line after the
      other, and then the end. -/
  visits : ∀ k, (Cursor.nextLine^[k] (first path)).StandsAt path (path.lineStarts.getD k path.size)
  stays : ∀ c : Cursor Float, c.StandsAt path path.size → c.nextLine = c
  back_next : ∀ (c : Cursor Float) (i : Nat), i ∈ path.lineStarts → c.StandsAt path i →
    c.nextLine.previousLine.StandsAt path i
  next_back : ∀ (c : Cursor Float) (i : Nat), (i ∈ path.lineStarts ∧ 0 < i) ∨ i = path.size →
    c.StandsAt path i → c.previousLine.nextLine.StandsAt path i
  /-- From behind the start of a line up to its end, a step back goes to the start. -/
  back_inside : ∀ (c : Cursor Float) (i k : Nat), i ∈ path.lineStarts →
    path.commands[k]?.map Command.line = path.commands[i]?.map Command.line →
    c.toolpath = path → Scalar.ofNat i < c.position → c.position ≤ Scalar.ofNat (k + 1) →
    c.previousLine.StandsAt path i

/-- **Stepping by lines is exact and reversible** on the toolpath of any program. -/
theorem stepsByLines_of_build {setup : Setup Float} {text : String}
    (built : Toolpath.build setup text = .ok path) (count : path.size < 2 ^ 53) :
    StepsByLines path := by
  obtain ⟨commands, -, index⟩ := Toolpath.ordered_of_build built
  have ordered : path.Ordered := ⟨commands.pairwise, index⟩
  have nonempty : 0 < path.size := Array.size_pos_iff.mpr (Toolpath.commands_ne_empty built)
  constructor
  case visits =>
    intro k
    obtain ⟨command, hc⟩ := Toolpath.exists_command nonempty
    have starts : 0 ∈ path.lineStarts := (Toolpath.mem_lineStarts ordered).mpr
      ⟨command, hc, Nat.le_zero.mp (Toolpath.before_line_le ordered hc)⟩
    have stands : (first path).StandsAt path 0 := by
      rw [first, ← Binary64.ofNat_zero]
      exact standsAt_ofIndex count (Nat.zero_le _)
    rw [← Toolpath.startsFrom_zero]
    exact stands.iterate_nextLine ordered count k (.inl starts)
  case stays => exact fun c stands => stands.nextLine_end count
  case back_next => exact fun c i starts stands => stands.previousLine_nextLine ordered count starts
  case next_back =>
    intro c i starts stands
    obtain ⟨k, rfl⟩ : ∃ k, i = k + 1 := Nat.exists_eq_succ_of_ne_zero (by omega)
    exact stands.nextLine_previousLine ordered count (starts.imp_left And.left)
  case back_inside =>
    intro c i k starts same toolpath above le
    obtain ⟨command, hc, -⟩ := (Toolpath.mem_lineStarts ordered).mp starts
    rw [hc] at same
    obtain ⟨last, hl, same⟩ := Option.map_eq_some_iff.mp same
    exact standsAt_previousLine_inside ordered count toolpath starts hc hl same above le

/-- A move, a hole and a move; the line between them does not move. -/
theorem stepsByLines_hole :
    let setup : Setup Float := ⟨.ofRapidFeed 5000.0, .empty⟩
    let text := "G1 X1 F100\nG81 X2 R2 Z-3\nG4 P1\nG0 X5"
    ∃ path, Toolpath.build setup text = .ok path ∧ path.size < 2 ^ 53 ∧
      path.lineStarts = [0, 1, 4] ∧ path.size = 5 ∧ StepsByLines path := by
  intro setup text
  have run : (Toolpath.build setup text).toOption.any (fun path =>
      decide (path.lineStarts = [0, 1, 4] ∧ path.size = 5)) = true := by decide +kernel
  obtain ⟨path, built, told⟩ := Toolpath.exists_of_any run
  obtain ⟨starts, size⟩ := of_decide_eq_true told
  have count : path.size < 2 ^ 53 := by omega
  exact ⟨path, built, count, starts, size, stepsByLines_of_build built count⟩

end Cursor

end NumericalControl
