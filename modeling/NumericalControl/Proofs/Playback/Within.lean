/-
  NumericalControl/Proofs/Playback/Within.lean
  ============================================
  **Every cursor stands within its toolpath.**  A cursor is made at a position, and whatever
  the position is, it is moved into the toolpath (`Cursor.within_ofPosition`).  Times, lines
  and steps only choose the position, so this holds of every cursor that they lead to
  (`Cursor.Reachable.within`).

  Up to `2 ^ 53` commands the whole part of a position within the toolpath is the place of a
  command or the end, and the fraction that is left lies between zero and one.  Hence every
  cursor has a command and a pose, and a step back finds the line that it starts from
  (`Cursor.inside_of_reachable`).
-/
import NumericalControl.Playback
import NumericalControl.Proofs.Binary64.Fraction
import NumericalControl.Proofs.Toolpath.Growth
import NumericalControl.Proofs.Toolpath.Lines

namespace NumericalControl.Cursor

open Scalar

/-! ### Cursors that can be reached -/

section

variable {α : Type} [Scalar α]

/-- The cursors of a toolpath: those made at a position, at a time or at a line, and those
    that steps lead to. -/
inductive Reachable (path : Toolpath α) : Cursor α → Prop
  | ofPosition (position : α) : Reachable path (ofPosition path position)
  | first : Reachable path (first path)
  | last : Reachable path (last path)
  | ofTime (seconds : α) : Reachable path (ofTime path seconds)
  | ofLine {line : Nat} {c : Cursor α} (h : ofLine? path line = some c) : Reachable path c
  | nextLine {c : Cursor α} (h : Reachable path c) : Reachable path c.nextLine
  | previousLine {c : Cursor α} (h : Reachable path c) : Reachable path c.previousLine

theorem exists_position_ofTime (path : Toolpath α) (seconds : α) :
    ∃ position, Cursor.ofTime path seconds = Cursor.ofPosition path position := by
  unfold Cursor.ofTime
  dsimp only
  split
  · exact ⟨_, rfl⟩
  · split
    · exact ⟨_, rfl⟩
    · exact ⟨_, rfl⟩

theorem nextLine_eq_or (c : Cursor α) :
    c.nextLine = c ∨ ∃ place, c.nextLine = ofIndex c.toolpath place := by
  unfold Cursor.nextLine
  dsimp only
  split
  · exact .inl rfl
  · split
    · exact .inr ⟨_, rfl⟩
    · exact .inr ⟨_, rfl⟩

theorem previousLine_eq_or (c : Cursor α) :
    c.previousLine = c ∨ ∃ place, c.previousLine = ofIndex c.toolpath place := by
  unfold Cursor.previousLine
  split
  · exact .inl rfl
  · exact .inr ⟨_, rfl⟩

/-- **Every cursor is one made at a position.** -/
theorem Reachable.exists_position {path : Toolpath α} {c : Cursor α} (h : Reachable path c) :
    ∃ position, c = Cursor.ofPosition path position := by
  induction h with
  | ofPosition position => exact ⟨position, rfl⟩
  | first => exact ⟨_, rfl⟩
  | last => exact ⟨_, rfl⟩
  | ofTime seconds => exact exists_position_ofTime path seconds
  | ofLine found =>
    obtain ⟨place, -, rfl⟩ := Option.map_eq_some_iff.mp found
    exact ⟨_, rfl⟩
  | @nextLine c _ ih =>
    obtain ⟨position, rfl⟩ := ih
    rcases nextLine_eq_or (Cursor.ofPosition path position) with stays | ⟨place, moved⟩
    · exact ⟨position, stays⟩
    · exact ⟨_, moved⟩
  | @previousLine c _ ih =>
    obtain ⟨position, rfl⟩ := ih
    rcases previousLine_eq_or (Cursor.ofPosition path position) with stays | ⟨place, moved⟩
    · exact ⟨position, stays⟩
    · exact ⟨_, moved⟩

/-- Where the whole part of the position is the end, the last command is done. -/
theorem segment_of_floor_eq_size {c : Cursor α} (nonempty : 0 < c.toolpath.size)
    (whole : Scalar.floor c.position = c.toolpath.size) :
    c.segment = (c.toolpath.size - 1, 1.0) := by
  rw [segment, whole]
  exact if_pos (Nat.sub_lt nonempty Nat.one_pos)

section

variable [OrderedScalar α] {path : Toolpath α} {position : α}

theorem position_between (order : (0.0 : α) ≤ Scalar.ofNat path.size) :
    (0.0 : α) ≤ (ofPosition path position).position ∧
      (ofPosition path position).position ≤ Scalar.ofNat path.size := by
  unfold ofPosition
  dsimp only
  split
  · exact ⟨Decidable.not_not.mp (OrderedScalar.defined_left order), order⟩
  · rename_i defined
    exact clamp_between order defined

/-- A position within the toolpath is kept. -/
theorem position_ofPosition (above : (0.0 : α) ≤ position)
    (below : position ≤ Scalar.ofNat path.size) :
    (ofPosition path position).position = position := by
  have defined : ¬IsNaN position := OrderedScalar.defined_right above
  rw [ofPosition, if_neg defined]
  exact clamp_eq_self above below

theorem position_first (order : (0.0 : α) ≤ Scalar.ofNat path.size) :
    (first path).position = 0.0 :=
  position_ofPosition (Decidable.not_not.mp (OrderedScalar.defined_left order)) order

theorem position_last (order : (0.0 : α) ≤ Scalar.ofNat path.size) :
    (last path).position = Scalar.ofNat path.size :=
  position_ofPosition order (Decidable.not_not.mp (OrderedScalar.defined_right order))

end

end

/-! ### Positions within a toolpath -/

variable {path : Toolpath Float} {c : Cursor Float} {i : Nat}

/-- A cursor of the toolpath at a position between its start and its end. -/
structure Within (path : Toolpath Float) (c : Cursor Float) : Prop where
  toolpath : c.toolpath = path
  above : (0.0 : Float) ≤ c.position
  below : c.position ≤ Scalar.ofNat path.size

theorem within_ofPosition (path : Toolpath Float) (position : Float) :
    (ofPosition path position).Within path := by
  obtain ⟨above, below⟩ := position_between (Binary64.zero_le_ofNat path.size)
  exact ⟨rfl, above, below⟩

theorem Reachable.within (h : Reachable path c) : c.Within path := by
  obtain ⟨position, rfl⟩ := h.exists_position
  exact within_ofPosition path position

section

variable (within : c.Within path) (count : path.size < 2 ^ 53)
include within count

theorem Within.floor_le : Scalar.floor c.position ≤ path.size :=
  Binary64.floor_le within.above within.below count

theorem Within.ceil_le : Scalar.ceil c.position ≤ path.size :=
  (Binary64.ceil_le_iff_of_le within.above within.below count count).mpr within.below

/-- **A cursor is in a command, at a fraction between zero and one.** -/
theorem Within.segment (nonempty : 0 < path.size) :
    c.segment.1 < path.size ∧ (0.0 : Float) ≤ c.segment.2 ∧ c.segment.2 ≤ 1.0 := by
  have fraction := Binary64.fraction_between within.above within.below count
  have toolpath := within.toolpath
  unfold Cursor.segment
  dsimp only
  rw [toolpath]
  split
  · exact ⟨Nat.sub_lt nonempty Nat.one_pos, Binary64.zero_le_one, Binary64.one_le_one⟩
  · rename_i inside
    exact ⟨by omega, fraction⟩

theorem Within.exists_command (nonempty : 0 < path.size) :
    ∃ command, c.command? = some command := by
  rw [Cursor.command?, within.toolpath]
  exact Toolpath.exists_command (within.segment count nonempty).1

/-- **A step back finds the line of the command before the cursor.** -/
theorem Within.exists_own (ordered : path.Ordered) {before : Nat}
    (behind : Scalar.ceil c.position = before + 1) :
    ∃ own, (path.commands[before]?.bind fun command => path.firstOfLine? command.line) =
      some own ∧ c.previousLine = ofIndex path own := by
  have lt : before < path.size := by
    have := within.ceil_le count
    omega
  obtain ⟨command, hc⟩ := Toolpath.exists_command lt
  have found := Toolpath.firstOfLine_eq ordered hc
  refine ⟨path.before command.line, by rw [hc, Option.bind_some, found], ?_⟩
  simp only [Cursor.previousLine, behind, within.toolpath, hc, Option.bind_some, found,
    Option.getD_some]

end

/-- What holds of a cursor that is inside its toolpath. -/
structure Inside (path : Toolpath Float) (c : Cursor Float) : Prop where
  toolpath : c.toolpath = path
  defined : ¬IsNaN c.position
  between : (0.0 : Float) ≤ c.position ∧ c.position ≤ Scalar.ofNat path.size
  index : c.segment.1 < path.size
  fraction : (0.0 : Float) ≤ c.segment.2 ∧ c.segment.2 ≤ 1.0
  command : c.command?.isSome
  state : c.state?.isSome
  line : c.line?.isSome
  pose : c.pose?.isSome
  /-- A command at the whole part of the position has a rest of the commands behind it. -/
  rest : Scalar.floor c.position ≤ path.size ∧
    ∀ current, path.commands[Scalar.floor c.position]? = some current →
      Scalar.floor c.position + 1 ≤ path.size

/-- **Every cursor is inside its toolpath**, however it was made and wherever steps led it.
    On the toolpath of a program a step back always finds the line of a command. -/
theorem inside_of_reachable (nonempty : 0 < path.size) (count : path.size < 2 ^ 53)
    (reachable : Reachable path c) :
    Inside path c ∧ ∀ setup text, Toolpath.build setup text = .ok path →
      ∀ before, Scalar.ceil c.position = before + 1 →
        ∃ own, (path.commands[before]?.bind fun command => path.firstOfLine? command.line) =
          some own ∧ c.previousLine = ofIndex path own := by
  have within := reachable.within
  obtain ⟨index, fraction⟩ := within.segment count nonempty
  obtain ⟨command, found⟩ := within.exists_command count nonempty
  constructor
  · constructor
    case toolpath => exact within.toolpath
    case defined => exact OrderedScalar.defined_right within.above
    case between => exact ⟨within.above, within.below⟩
    case index => exact index
    case fraction => exact fraction
    case command => rw [found, Option.isSome_some]
    case state => rw [state?, found, Option.map_some, Option.isSome_some]
    case line => rw [line?, found, Option.map_some, Option.isSome_some]
    case pose => rw [pose?, found, Option.map_some, Option.isSome_some]
    case rest => exact ⟨within.floor_le count, fun _ hc => Toolpath.lt_size hc⟩
  · intro setup text built before behind
    obtain ⟨commands, -, index⟩ := Toolpath.ordered_of_build built
    exact within.exists_own count ⟨commands.pairwise, index⟩ behind

/-- A time that is infinite, a step back over a hole and a step on. -/
theorem inside_after_hole :
    let setup : Setup Float := ⟨.ofRapidFeed 5000.0, .empty⟩
    let text := "G1 X1 F100\nG81 X2 R2 Z-3"
    ∃ path, Toolpath.build setup text = .ok path ∧
      let c := ofTime path Binary64.infinity
      Scalar.ceil c.position = 4 ∧ Inside path c ∧ Inside path c.previousLine ∧
        Inside path c.previousLine.nextLine ∧ ∃ own, c.previousLine = ofIndex path own := by
  intro setup text
  have run : (Toolpath.build setup text).toOption.any (fun path =>
      decide (path.size = 4 ∧ Scalar.ceil (ofTime path Binary64.infinity).position = 4)) =
        true := by
    decide +kernel
  obtain ⟨path, built, told⟩ := Toolpath.exists_of_any run
  obtain ⟨size, behind⟩ := of_decide_eq_true told
  have nonempty : 0 < path.size := by omega
  have count : path.size < 2 ^ 53 := by omega
  have reachable : Reachable path (ofTime path Binary64.infinity) := .ofTime Binary64.infinity
  obtain ⟨inside, finds⟩ := inside_of_reachable nonempty count reachable
  obtain ⟨own, -, moved⟩ := finds setup text built 3 behind
  refine ⟨path, built, behind, inside, ?_, ?_, own, moved⟩
  · exact (inside_of_reachable nonempty count reachable.previousLine).1
  · exact (inside_of_reachable nonempty count reachable.previousLine.nextLine).1

end NumericalControl.Cursor
