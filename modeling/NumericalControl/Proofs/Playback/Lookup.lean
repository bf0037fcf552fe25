/-
  NumericalControl/Proofs/Playback/Lookup.lean
  ============================================
  **Looking up a line.**  Halving finds the number of commands before a line.  The command
  that stands there is the first one of the line, if the line has any, and it knows its own
  place (`Toolpath.firstOfLine_eq_some_iff`); where another line stands there, or nothing,
  the line has no command (`Toolpath.firstOfLine_eq_none_iff`).

  A cursor made for a line stands at that place, so it is in that command, and nothing of
  the command is done.
-/
import NumericalControl.Proofs.Playback.Places

namespace NumericalControl

namespace Toolpath

variable {α : Type} {path : Toolpath α} {i line : Nat}

/-- The place of the first command of a line. -/
structure IsFirst (path : Toolpath α) (line i : Nat) : Prop where
  own : ∃ c, path.commands[i]? = some c ∧ c.line = line
  least : ∀ j c, path.commands[j]? = some c → c.line = line → i ≤ j

section

variable (ordered : path.Ordered)
include ordered

theorem firstOfLine_eq_some_iff : path.firstOfLine? line = some i ↔ path.IsFirst line i := by
  constructor
  · intro found
    obtain ⟨c, held, index⟩ := Option.map_eq_some_iff.mp found
    obtain ⟨hc, same⟩ := Option.filter_eq_some_iff.mp held
    obtain rfl : c.line = line := by simpa using same
    have place : path.before c.line = i := (ordered.index _ c hc).symm.trans index
    refine ⟨⟨c, place ▸ hc, rfl⟩, ?_⟩
    intro j d hd own
    rw [← place, ← own]
    exact before_line_le ordered hd
  · rintro ⟨⟨c, hc, rfl⟩, least⟩
    obtain ⟨d, hd, own⟩ := exists_first ordered hc
    rw [firstOfLine_eq ordered hc]
    exact congrArg some (Nat.le_antisymm (before_line_le ordered hc) (least _ d hd own))

theorem firstOfLine_eq_none_iff :
    path.firstOfLine? line = none ↔ ∀ c ∈ path.commands, c.line ≠ line := by
  constructor
  · rintro absent c mem rfl
    obtain ⟨j, hc⟩ := Array.mem_iff_getElem?.mp mem
    rw [firstOfLine_eq ordered hc] at absent
    cases absent
  · intro absent
    rcases found : path.firstOfLine? line with _ | i
    · rfl
    · obtain ⟨c, hc, own⟩ := ((firstOfLine_eq_some_iff ordered).mp found).own
      exact absurd own (absent c (Array.mem_of_getElem? hc))

end

end Toolpath

namespace Cursor

variable {path : Toolpath Float}

/-- Looking up a line finds its first command, or that it has none. -/
structure FindsLines (path : Toolpath Float) : Prop where
  first : ∀ line i, path.firstOfLine? line = some i ↔ path.IsFirst line i
  first_none : ∀ line, path.firstOfLine? line = none ↔ ∀ c ∈ path.commands, c.line ≠ line
  cursor_none : ∀ line, ofLine? path line = none ↔ ∀ c ∈ path.commands, c.line ≠ line
  /-- The places are exact up to `2 ^ 53` commands. -/
  cursor : path.size < 2 ^ 53 → ∀ line i command, path.IsFirst line i →
    path.commands[i]? = some command →
    ∃ c, ofLine? path line = some c ∧ c.toolpath = path ∧ c.command? = some command ∧
      c.pose? = some (command.poseAt command.start)

/-- **Looking up lines is exact** on the toolpath of any program. -/
theorem findsLines_of_build {setup : Setup Float} {text : String}
    (built : Toolpath.build setup text = .ok path) : FindsLines path := by
  obtain ⟨commands, -, index⟩ := Toolpath.ordered_of_build built
  have ordered : path.Ordered := ⟨commands.pairwise, index⟩
  constructor
  case first => exact fun line i => Toolpath.firstOfLine_eq_some_iff ordered
  case first_none => exact fun line => Toolpath.firstOfLine_eq_none_iff ordered
  case cursor_none =>
    intro line
    rw [← Toolpath.firstOfLine_eq_none_iff ordered, ofLine?, Option.map_eq_none_iff]
  case cursor =>
    intro count line i command first hc
    have found := (Toolpath.firstOfLine_eq_some_iff ordered).mpr first
    have stands : (ofIndex path i).StandsAt path i :=
      standsAt_ofIndex count (Nat.le_of_lt (Toolpath.lt_size hc))
    refine ⟨ofIndex path i, by rw [ofLine?, found, Option.map_some], stands.toolpath, ?_,
      stands.pose count hc⟩
    rw [command?, stands.segment count hc, stands.toolpath]
    exact hc

/-- A hole between two moves, behind a line that only pauses. -/
theorem findsLines_hole :
    let setup : Setup Float := ⟨.ofRapidFeed 5000.0, .empty⟩
    let text := "G4 P1\nG1 X1 F100\nG81 X2 R2 Z-3\nG0 X5"
    ∃ path, Toolpath.build setup text = .ok path ∧ FindsLines path ∧ path.size = 5 ∧
      path.firstOfLine? 1 = none ∧ path.firstOfLine? 3 = some 1 ∧
      path.firstOfLine? 4 = some 4 ∧ path.firstOfLine? 5 = none := by
  intro setup text
  have run : (Toolpath.build setup text).toOption.any (fun path =>
      decide (path.size = 5 ∧ path.firstOfLine? 1 = none ∧ path.firstOfLine? 3 = some 1 ∧
        path.firstOfLine? 4 = some 4 ∧ path.firstOfLine? 5 = none)) = true := by
    decide +kernel
  obtain ⟨path, built, told⟩ := Toolpath.exists_of_any run
  exact ⟨path, built, findsLines_of_build built, of_decide_eq_true told⟩

end Cursor

end NumericalControl
