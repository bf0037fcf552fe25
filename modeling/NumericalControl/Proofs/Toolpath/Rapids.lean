/-
  NumericalControl/Proofs/Toolpath/Rapids.lean
  ============================================
  **Rapid moves below a level.**  The list of them is read off the boxes of the commands.
  That is right because a rapid command never has an arc (`Toolpath.arc_of_isRapid`): its box
  is made from its two ends alone, and the lower end of the box on Z is the lower one of
  both, where an undefined end is dropped (`Command.min_z_lt_iff`).  Each command knows its
  place, so the list holds the places of the rapid commands with an end below the level,
  each once and in their order (`Toolpath.findsRapids_of_build`).
-/
import NumericalControl.Proofs.Toolpath.Limits
import NumericalControl.Proofs.Toolpath.Lines
import NumericalControl.Proofs.Toolpath.Stream

namespace NumericalControl

/-- Only the legs of a hole have a phase. -/
theorem LineShape.motion_eq_drill {shape : List (Motion × Option DrillPhase)}
    (h : LineShape shape) {motion : Motion} {phase : DrillPhase}
    (mem : (motion, some phase) ∈ shape) : motion = .drill := by
  cases h with
  | move => simp at mem
  | hole =>
    simp only [List.mem_cons, Prod.mk.injEq, List.not_mem_nil, or_false] at mem
    rcases mem with ⟨drill, -⟩ | ⟨drill, -⟩ | ⟨drill, -⟩
    all_goals exact drill

variable {α : Type} [Scalar α]

/-- **The box of a straight command goes below a level where one of its ends does.** -/
theorem Command.min_z_lt_iff [OrderedScalar α] {c : Command α}
    (bounds : c.bounds = moveBounds c.start c.target c.arc) (straight : c.arc = none)
    (level : α) : c.bounds.min.z < level ↔ c.start.z < level ∨ c.target.z < level := by
  rw [bounds, straight]
  exact Scalar.min_lt_iff

namespace Toolpath

variable {setup : Setup α} {text : String} {path : Toolpath α}

theorem motion_eq_drill (built : build setup text = .ok path) {c : Command α}
    (mem : c ∈ path.commands) {phase : DrillPhase} (own : c.phase = some phase) :
    c.motion = .drill := by
  obtain ⟨front, block, back, split, before, -, behind, shape⟩ := exists_block built mem
  have mem : c ∈ front ++ block ++ back := split ▸ Array.mem_toList_iff.mpr mem
  have inside : c ∈ block := by
    rcases List.mem_append.mp mem with mem | mem
    · exact (List.mem_append.mp mem).resolve_left fun early => Nat.lt_irrefl _ (before c early)
    · exact absurd (behind c mem) (Nat.lt_irrefl _)
  have leg : (c.motion, some phase) ∈ block.map fun d => (d.motion, d.phase) := by
    rw [← own]
    exact List.mem_map_of_mem inside
  exact shape.motion_eq_drill leg

/-- **A rapid command has no arc**: neither a rapid move nor a leg of a hole is an arc. -/
theorem arc_of_isRapid (built : build setup text = .ok path) {c : Command α}
    (mem : c ∈ path.commands) (rapid : c.isRapid = true) : c.arc = none := by
  obtain ⟨isRapid, direction, -⟩ := fits_of_build built mem
  have straight : c.motion.direction? = none := by
    rcases isRapid.mp rapid with motion | phase | phase
    · rw [motion]
      rfl
    · rw [motion_eq_drill built mem phase]
      rfl
    · rw [motion_eq_drill built mem phase]
      rfl
  rw [straight] at direction
  exact Option.map_eq_none_iff.mp direction

/-- Each command knows its place, so the list runs through the places in their order. -/
theorem rapidsBelow_eq
    (index : ∀ (i : Nat) (c : Command α), path.commands[i]? = some c → c.index = i) (level : α) :
    path.rapidsBelow level = (List.range path.size).filter fun i =>
      path.commands[i]?.any fun c => c.isRapid && decide (c.bounds.min.z < level) := by
  have places : path.commands.toList.map (·.index) = List.range path.size := by
    refine List.ext_getElem (by simp [size]) ?_
    intro i inside _
    simpa using index i _ (Array.getElem?_eq_getElem (by simpa using inside))
  rw [← places, List.filter_map, rapidsBelow]
  refine congrArg (List.map Command.index) (List.filter_congr ?_)
  intro c mem
  obtain ⟨i, hc⟩ := List.mem_iff_getElem?.mp mem
  rw [Array.getElem?_toList] at hc
  simp [index i c hc, hc]

variable [OrderedScalar α]

/-- The list of the rapid commands below a level is complete and exact. -/
structure FindsRapids (path : Toolpath α) : Prop where
  ascending : ∀ level, (path.rapidsBelow level).Pairwise (· < ·)
  found : ∀ (level : α) (i : Nat), i ∈ path.rapidsBelow level ↔ ∃ c, path.commands[i]? = some c ∧
    c.isRapid = true ∧ (c.start.z < level ∨ c.target.z < level)
  /-- The two legs of a hole that do not cut are rapid commands. -/
  legs : ∀ (level : α) (i : Nat) (c : Command α), path.commands[i]? = some c →
    c.phase = some .position ∨ c.phase = some .retract →
      (i ∈ path.rapidsBelow level ↔ c.start.z < level ∨ c.target.z < level)
  /-- However deep a circle goes, its command is no rapid one. -/
  arcs : ∀ (level : α) (i : Nat) (c : Command α), path.commands[i]? = some c →
    c.arc.isSome = true → i ∉ path.rapidsBelow level

/-- **The rapid commands below a level are all found, and nothing else.** -/
theorem findsRapids_of_build (built : build setup text = .ok path) : path.FindsRapids := by
  obtain ⟨b, -, commands, -, told⟩ := told_of_build built
  obtain ⟨-, -, index⟩ := ordered_of_build built
  have below : ∀ {c : Command α}, c ∈ path.commands → c.isRapid = true → ∀ level,
      (c.bounds.min.z < level ↔ c.start.z < level ∨ c.target.z < level) :=
    fun mem rapid => Command.min_z_lt_iff (told.bounds _ (commands ▸ mem))
      (arc_of_isRapid built mem rapid)
  have found : ∀ (level : α) (i : Nat), i ∈ path.rapidsBelow level ↔ ∃ c,
      path.commands[i]? = some c ∧ c.isRapid = true ∧
        (c.start.z < level ∨ c.target.z < level) := by
    intro level i
    rw [rapidsBelow_eq index, List.mem_filter, List.mem_range, Option.any_eq_true]
    constructor
    · rintro ⟨-, c, hc, holds⟩
      obtain ⟨rapid, lower⟩ := Bool.and_eq_true_iff.mp holds
      have mem := Array.mem_of_getElem? hc
      exact ⟨c, hc, rapid, (below mem rapid level).mp (of_decide_eq_true lower)⟩
    · rintro ⟨c, hc, rapid, lower⟩
      have mem := Array.mem_of_getElem? hc
      have lower := decide_eq_true ((below mem rapid level).mpr lower)
      exact ⟨lt_size hc, c, hc, Bool.and_eq_true_iff.mpr ⟨rapid, lower⟩⟩
  constructor
  case ascending =>
    intro level
    rw [rapidsBelow_eq index]
    exact List.pairwise_lt_range.filter _
  case found => exact found
  case legs =>
    intro level i c hc leg
    have rapid := (fits_of_build built (Array.mem_of_getElem? hc)).rapid.mpr (.inr leg)
    rw [found]
    constructor
    · rintro ⟨d, hd, -, lower⟩
      obtain rfl := Option.some.inj (hc.symm.trans hd)
      exact lower
    · exact fun lower => ⟨c, hc, rapid, lower⟩
  case arcs =>
    intro level i c hc curved listed
    obtain ⟨d, hd, rapid, -⟩ := (found level i).mp listed
    obtain rfl := Option.some.inj (hc.symm.trans hd)
    rw [arc_of_isRapid built (Array.mem_of_getElem? hc) rapid] at curved
    cases curved

/-- A circle that goes below the first level, a hole, and two moves with an end that is no
    number on Z. -/
theorem findsRapids_undefined_end :
    let setup : Setup Float := {
      machine := .ofRapidFeed 5000.0
      offsets := ⟨WorkOffsets.empty.insert "G55" ⟨0.0, 0.0, Binary64.nan, 0.0, 0.0⟩, .empty⟩ }
    let text := "G0 Z5\nG18 G2 X8 I4 F100\nG17 G81 X9 R1 Z-3\nG55 G0 X0\nG54 Z2"
    ∃ path, build setup text = .ok path ∧ path.FindsRapids ∧
      path.rapidsBelow 1.5 = [0, 2, 4] ∧ path.rapidsBelow 3.0 = [0, 2, 4, 6] := by
  intro setup text
  have run : (build setup text).toOption.any (fun path =>
      decide (path.rapidsBelow 1.5 = [0, 2, 4] ∧ path.rapidsBelow 3.0 = [0, 2, 4, 6])) =
        true := by
    decide +kernel
  obtain ⟨path, built, lists⟩ := exists_of_any run
  exact ⟨path, built, findsRapids_of_build built, of_decide_eq_true lists⟩

end Toolpath

end NumericalControl
