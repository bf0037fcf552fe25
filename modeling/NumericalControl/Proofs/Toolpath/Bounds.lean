/-
  NumericalControl/Proofs/Toolpath/Bounds.lean
  ============================================
  **Bounding boxes are sound and tight.**  The box of a command spans the coordinates that
  the command reaches, and merging two boxes gives one that spans what either does.  The
  bounding box of a toolpath is merged from the boxes of its commands, one after the other
  (`Builder.Boxed`), so it spans all that they reach: every defined coordinate lies between
  its ends, and its ends are among the coordinates.

  What is spanned determines the ends of a range.  Hence boxes that are merged in another
  order, or grouped in another way, agree with the bounding box
  (`Toolpath.tightlyBounded_of_build`).
-/
import NumericalControl.Proofs.Toolpath.Limits

namespace NumericalControl

open Scalar

variable {α : Type} [Scalar α]

namespace Command

/-- The coordinates on an axis that a command reaches: those of both its ends, and both ends
    of its circle. -/
def reached (c : Command α) (axis : Axis) : List α := reachedOn c.start c.target c.arc axis

/-- A box that is merged from the boxes of commands, in the order of the list. -/
inductive Merged : List (Command α) → Box α → Prop
  | single (c : Command α) : Merged [c] c.bounds
  | union {first second : List (Command α)} {box other : Box α} (h : Merged first box)
      (h' : Merged second other) : Merged (first ++ second) (box.union other)

/-- **A merged box spans what the commands reach.** -/
theorem Merged.spansOn [OrderedScalar α] {commands : List (Command α)} {box : Box α}
    (h : Merged commands box) {axis : Axis}
    (own : ∀ c ∈ commands, c.bounds.SpansOn axis (c.reached axis)) :
    box.SpansOn axis (commands.flatMap (·.reached axis)) := by
  induction h with
  | single c =>
    rw [List.flatMap_singleton]
    exact own c (List.mem_singleton_self c)
  | union _ _ first second =>
    rw [List.flatMap_append]
    exact (first fun c mem => own c (List.mem_append_left _ mem)).union
      (second fun c mem => own c (List.mem_append_right _ mem))

end Command

namespace Builder

theorem bounds_addMove_of_none {totals : Totals α} (h : totals.bounds = none) (isRapid : Bool)
    (length rotaryTravel duration : α) (box : Box α) :
    (totals.addMove isRapid length rotaryTravel duration box).bounds = some box := by
  simp only [Totals.addMove, h]

theorem bounds_addMove_of_some {totals : Totals α} {before : Box α}
    (h : totals.bounds = some before) (isRapid : Bool) (length rotaryTravel duration : α)
    (box : Box α) :
    (totals.addMove isRapid length rotaryTravel duration box).bounds =
      some (before.union box) := by
  simp only [Totals.addMove, h]

/-- The box of a builder is merged from the boxes of its commands, if it has any. -/
def Boxed (b : Builder α) : Prop :=
  b.totals.bounds = none ∧ b.commands = #[] ∨
    ∃ box, b.totals.bounds = some box ∧ Command.Merged b.commands.toList box

theorem boxed_of_start {setup : Setup α} {b : Builder α} (h : start setup = .ok b) :
    b.Boxed := by
  obtain ⟨-, rfl⟩ := eq_of_start h
  exact .inl ⟨rfl, rfl⟩

theorem Boxed.addSegment {b : Builder α} (h : b.Boxed) (source : String) (after : State α)
    (segment : Segment α) : (b.addSegment source after segment).Boxed := by
  let command := b.commandOf source after segment
  have commands : (b.addSegment source after segment).commands.toList =
      b.commands.toList ++ [command] := Array.toList_push
  rcases h with ⟨unbounded, empty⟩ | ⟨box, known, merged⟩
  · refine .inr ⟨command.bounds, bounds_addMove_of_none unbounded _ _ _ _ _, ?_⟩
    rw [commands, empty]
    exact .single command
  · refine .inr ⟨box.union command.bounds, bounds_addMove_of_some known _ _ _ _ _, ?_⟩
    rw [commands]
    exact merged.union (.single command)

/-- **Every small step keeps the box merged from those of the commands.** -/
theorem Step.boxed {b next : Builder α} (step : Step b next) (h : b.Boxed) : next.Boxed := by
  cases step with
  | count => exact h
  | note => exact h
  | pause => exact h
  | remember => exact h
  | segment source after segment => exact h.addSegment source after segment

end Builder

namespace Toolpath

variable {setup : Setup α} {text : String} {path : Toolpath α}

theorem merged_of_build (built : Toolpath.build setup text = .ok path) :
    Command.Merged path.commands.toList path.stats.boundingBox := by
  obtain ⟨b, -, hfinish, boxed⟩ := holds_of_build built Builder.boxed_of_start Builder.Step.boxed
  obtain ⟨box, bounds, stats⟩ := Builder.stats_of_finish hfinish
  rw [stats, (Builder.toolpath_of_finish hfinish).1]
  rcases boxed with ⟨unbounded, -⟩ | ⟨other, known, merged⟩
  · exact absurd (bounds.symm.trans unbounded) (Option.some_ne_none box)
  · obtain rfl : other = box := Option.some.inj (known.symm.trans bounds)
    exact merged

variable [OrderedScalar α]

theorem spansOn_bounds (built : Toolpath.build setup text = .ok path) {c : Command α}
    (mem : c ∈ path.commands) (axis : Axis) : c.bounds.SpansOn axis (c.reached axis) := by
  obtain ⟨b, -, commands, -, told⟩ := Toolpath.told_of_build built
  rw [told.bounds c (commands ▸ mem)]
  exact spansOn_moveBounds c.start c.target c.arc axis

/-- Bounding boxes hold what the commands of a toolpath reach, and no more. -/
structure TightlyBounded (path : Toolpath α) : Prop where
  /-- Each command stays within its own box. -/
  command : ∀ c ∈ path.commands, ∀ axis, ∀ v ∈ c.reached axis, ¬IsNaN v →
    c.bounds.min.get axis ≤ v ∧ v ≤ c.bounds.max.get axis
  total : ∀ c ∈ path.commands, ∀ axis, ∀ v ∈ c.reached axis, ¬IsNaN v →
    path.stats.boundingBox.min.get axis ≤ v ∧ v ≤ path.stats.boundingBox.max.get axis
  low : ∀ axis, ∃ c ∈ path.commands, path.stats.boundingBox.min.get axis ∈ c.reached axis
  high : ∀ axis, ∃ c ∈ path.commands, path.stats.boundingBox.max.get axis ∈ c.reached axis
  /-- The boxes of the commands can be merged in any order and any grouping. -/
  order : ∀ commands box, commands.Perm path.commands.toList → Command.Merged commands box →
    ∀ axis, Agree (box.min.get axis) (path.stats.boundingBox.min.get axis) ∧
      Agree (box.max.get axis) (path.stats.boundingBox.max.get axis)
  wellFormed : (∀ c ∈ path.commands, ∀ axis, ∀ v ∈ c.reached axis, ¬IsNaN v) →
    path.stats.boundingBox.isWellFormed = true

/-- **The bounding boxes of a toolpath are sound and tight.** -/
theorem tightlyBounded_of_build (built : Toolpath.build setup text = .ok path) :
    path.TightlyBounded := by
  have merged := merged_of_build built
  have own : ∀ axis, ∀ c ∈ path.commands.toList, c.bounds.SpansOn axis (c.reached axis) :=
    fun axis c mem => spansOn_bounds built (Array.mem_toList_iff.mp mem) axis
  have spans : ∀ axis, path.stats.boundingBox.SpansOn axis
      (path.commands.toList.flatMap (·.reached axis)) :=
    fun axis => merged.spansOn (own axis)
  constructor
  case command =>
    intro c mem axis
    exact (spansOn_bounds built mem axis).between
  case total =>
    intro c mem axis v reached
    exact (spans axis).between v
      (List.mem_flatMap.mpr ⟨c, Array.mem_toList_iff.mpr mem, reached⟩)
  case low =>
    intro axis
    obtain ⟨c, mem, reached⟩ := List.mem_flatMap.mp (spans axis).lo_mem
    exact ⟨c, Array.mem_toList_iff.mp mem, reached⟩
  case high =>
    intro axis
    obtain ⟨c, mem, reached⟩ := List.mem_flatMap.mp (spans axis).hi_mem
    exact ⟨c, Array.mem_toList_iff.mp mem, reached⟩
  case order =>
    intro commands box perm other axis
    have spans' := other.spansOn fun c mem => own axis c (perm.mem_iff.mp mem)
    exact spans'.agree (spans axis) fun v => (perm.flatMap_right _).mem_iff
  case wellFormed =>
    intro defined
    refine (Box.isWellFormed_iff spans).mpr fun axis => ?_
    have reached := (spans axis).lo_mem
    obtain ⟨c, mem, reachedBy⟩ := List.mem_flatMap.mp reached
    exact ⟨_, reached, defined c (Array.mem_toList_iff.mp mem) axis _ reachedBy⟩

/-- An arc by its radius and a hole, with an offset that is no number on one axis. -/
theorem tightlyBounded_arc :
    let setup : Setup Float := {
      machine := .ofRapidFeed 5000.0
      offsets := ⟨WorkOffsets.empty.insert "G55" ⟨0.0, 0.0, 0.0, Binary64.nan, 0.0⟩, .empty⟩ }
    let text := "G3 X1 Y3 R5 F100\nG55 G81 X2 R2 Z-3"
    ∃ path, Toolpath.build setup text = .ok path ∧ path.size = 4 ∧ path.TightlyBounded := by
  intro setup text
  have run : (Toolpath.build setup text).toOption.any (fun path =>
      decide (path.size = 4)) = true := by
    decide +kernel
  obtain ⟨path, built, size⟩ := Toolpath.exists_of_any run
  exact ⟨path, built, of_decide_eq_true size, tightlyBounded_of_build built⟩

end Toolpath

end NumericalControl
