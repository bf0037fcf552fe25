/-
  NumericalControl/Proofs/Playback/Places.lean
  ============================================
  **Poses at the places of commands.**  At the place of a command nothing of the command is
  done, and at the end of the toolpath all of its last one.  A command is exactly at its
  start when nothing of it is done and exactly at its target when all of it is, so no angle
  and no fraction is computed there, and the poses of arcs are as exact as those of straight
  moves.

  A command starts where the one before it ends.  Hence a cursor at a whole number stands
  where the command with that number starts and where the one before it ends, and beyond
  both ends of the toolpath it stands at the ends (`Cursor.exactAtPlaces_of_build`).
-/
import NumericalControl.Proofs.Playback.Lines
import NumericalControl.Proofs.Toolpath.Continuity

namespace NumericalControl

section

variable {α : Type} [Scalar α]

/-- The pose of the machine when the command is at a position. -/
def Command.poseAt (command : Command α) (position : Position α) : Pose α :=
  ⟨position, command.feedRate, command.spindleSpeed, command.isRapid⟩

theorem Command.positionAt_of_le (command : Command α) {t : α} (h : t ≤ 0.0) :
    command.positionAt t = command.start :=
  if_pos h

theorem Cursor.pose_eq {c : Cursor α} {i : Nat} {t : α} {command : Command α}
    (segment : c.segment = (i, t)) (h : c.toolpath.commands[i]? = some command) :
    c.pose? = some (command.poseAt (command.positionAt t)) := by
  rw [pose?, command?, segment, h]
  rfl

end

theorem Command.positionAt_one (command : Command Float) :
    command.positionAt 1.0 = command.target := by
  have begun : ¬(1.0 : Float) ≤ 0.0 := by decide +kernel
  rw [positionAt, if_neg begun, if_pos Binary64.one_le_one]

namespace Binary64

theorem sub_le_zero_of_same {x : Float} {n : Nat} (lt : n < 2 ^ 53)
    (same : Scalar.Same x (Scalar.ofNat n)) : x - Scalar.ofNat n ≤ 0.0 := by
  rcases Nat.eq_zero_or_pos n with rfl | some
  · rw [ofNat_zero] at same ⊢
    rw [sub_zero]
    exact same.1
  · have finite : Scalar.isFinite (Scalar.ofNat n : Float) = true := by
      rw [isFinite_iff, unpack_ofNat some lt]
      rfl
    rw [eq_ofNat_of_same some lt same, sub_self finite]
    decide +kernel

theorem ofNat_le_infinity {n : Nat} (lt : n < 2 ^ 53) : (Scalar.ofNat n : Float) ≤ infinity := by
  rcases Nat.eq_zero_or_pos n with rfl | some
  · decide +kernel
  · have infinite : infinity.toModel.unpack = .infinity .positive := rfl
    rw [le_iff_unpack, unpack_ofNat some lt, infinite]
    rfl

end Binary64

namespace Cursor

variable {path : Toolpath Float} {c : Cursor Float} {i : Nat} {command : Command Float}

/-! ### Where a cursor is made -/

theorem standsAt_of_front {position : Float} (h : position ≤ 0.0 ∨ Scalar.IsNaN position) :
    (ofPosition path position).StandsAt path 0 := by
  have order : (0.0 : Float) ≤ Scalar.ofNat path.size := Binary64.zero_le_ofNat path.size
  have self : (0.0 : Float) ≤ 0.0 := Decidable.not_not.mp (OrderedScalar.defined_left order)
  refine ⟨rfl, ?_⟩
  rw [Binary64.ofNat_zero, ofPosition]
  split
  · exact ⟨self, self⟩
  · rename_i defined
    exact Scalar.clamp_same_low order (h.resolve_right defined)

theorem standsAt_of_behind {position : Float} (h : Scalar.ofNat path.size ≤ position) :
    (ofPosition path position).StandsAt path path.size := by
  have order : (0.0 : Float) ≤ Scalar.ofNat path.size := Binary64.zero_le_ofNat path.size
  have defined : ¬Scalar.IsNaN position := OrderedScalar.defined_right h
  refine ⟨rfl, ?_⟩
  rw [ofPosition, if_neg defined]
  exact Scalar.clamp_same_high order h

/-! ### Poses -/

theorem StandsAt.segment (stands : c.StandsAt path i) (count : path.size < 2 ^ 53)
    (hc : path.commands[i]? = some command) : c.segment = (i, c.position - Scalar.ofNat i) := by
  have inside := Toolpath.lt_size hc
  obtain ⟨rfl, position⟩ := stands
  rw [Cursor.segment, (Binary64.floor_ceil_of_same (Nat.lt_trans inside count) position).1]
  exact if_neg (by omega)

/-- **At the place of a command nothing of the command is done.** -/
theorem StandsAt.pose (stands : c.StandsAt path i) (count : path.size < 2 ^ 53)
    (hc : path.commands[i]? = some command) : c.pose? = some (command.poseAt command.start) := by
  have segment := stands.segment count hc
  have lt := Nat.lt_trans (Toolpath.lt_size hc) count
  obtain ⟨rfl, position⟩ := stands
  have front : c.position - Scalar.ofNat i ≤ 0.0 := Binary64.sub_le_zero_of_same lt position
  rw [pose_eq segment hc, command.positionAt_of_le front]

/-- **At the end all of the last command is done.** -/
theorem StandsAt.pose_end (stands : c.StandsAt path path.size) (count : path.size < 2 ^ 53)
    (hc : path.commands.back? = some command) :
    c.pose? = some (command.poseAt command.target) := by
  rw [Array.back?_eq_getElem?] at hc
  have nonempty : 0 < path.size := Nat.zero_lt_of_lt (Toolpath.lt_size hc)
  obtain ⟨rfl, position⟩ := stands
  have segment : c.segment = (c.toolpath.size - 1, 1.0) :=
    segment_of_floor_eq_size nonempty (Binary64.floor_ceil_of_same count position).1
  rw [pose_eq segment hc, command.positionAt_one]

/-- Poses are exact at whole numbers and beyond the ends of the toolpath. -/
structure ExactAtPlaces (path : Toolpath Float) : Prop where
  nonempty : path.commands ≠ #[]
  start : ∀ i command, path.commands[i]? = some command →
    (ofIndex path i).pose? = some (command.poseAt command.start)
  /-- The next whole number, which is the end of the toolpath for its last command. -/
  target : ∀ i command, path.commands[i]? = some command →
    (ofIndex path (i + 1)).pose?.map Pose.position = some command.target
  front : ∀ position command, position ≤ 0.0 ∨ Scalar.IsNaN position →
    path.commands[0]? = some command →
    (ofPosition path position).pose? = some (command.poseAt command.start)
  behind : ∀ position command, Scalar.ofNat path.size ≤ position ∨ position = Binary64.infinity →
    path.commands.back? = some command →
    (ofPosition path position).pose? = some (command.poseAt command.target)

/-- **Playback is exact at the places of commands**, and where a command starts the one
    before it has ended. -/
theorem exactAtPlaces_of_build {setup : Setup Float} {text : String}
    (built : Toolpath.build setup text = .ok path) (count : path.size < 2 ^ 53) :
    ExactAtPlaces path := by
  have placed {i : Nat} (le : i ≤ path.size) : (ofIndex path i).StandsAt path i :=
    standsAt_ofIndex count le
  constructor
  case nonempty => exact Toolpath.commands_ne_empty built
  case start =>
    intro i command hc
    exact (placed (Nat.le_of_lt (Toolpath.lt_size hc))).pose count hc
  case target =>
    intro i command hc
    have le : i + 1 ≤ path.size := Toolpath.lt_size hc
    rcases Nat.eq_or_lt_of_le le with last | inside
    · have place : path.commands.size - 1 = i := Nat.sub_eq_of_eq_add last.symm
      have back : path.commands.back? = some command := by
        rw [Array.back?_eq_getElem?, place]
        exact hc
      have ended : (ofIndex path (i + 1)).StandsAt path path.size := last ▸ placed le
      rw [ended.pose_end count back]
      rfl
    · obtain ⟨next, hn⟩ := Toolpath.exists_command inside
      rw [(placed le).pose count hn, ← Toolpath.start_eq_target built hc hn]
      rfl
  case front =>
    intro position command h hc
    exact (standsAt_of_front h).pose count hc
  case behind =>
    intro position command h hc
    have above : Scalar.ofNat path.size ≤ position := by
      rcases h with above | rfl
      · exact above
      · exact Binary64.ofNat_le_infinity count
    exact (standsAt_of_behind above).pose_end count hc

/-- An arc by its radius and a hole. -/
theorem exactAtPlaces_arc :
    let setup : Setup Float := ⟨.ofRapidFeed 5000.0, .empty⟩
    let text := "G3 X1 Y3 R5 F100\nG81 X2 R2 Z-3"
    ∃ path, Toolpath.build setup text = .ok path ∧ path.size = 4 ∧
      (path.commands[0]?.bind Command.arc).isSome ∧ path.size < 2 ^ 53 ∧ ExactAtPlaces path := by
  intro setup text
  have run : (Toolpath.build setup text).toOption.any (fun path =>
      decide (path.size = 4 ∧ (path.commands[0]?.bind Command.arc).isSome)) = true := by
    decide +kernel
  obtain ⟨path, built, told⟩ := Toolpath.exists_of_any run
  obtain ⟨size, isArc⟩ := of_decide_eq_true told
  have count : path.size < 2 ^ 53 := by omega
  exact ⟨path, built, size, isArc, count, exactAtPlaces_of_build built count⟩

end Cursor

end NumericalControl
