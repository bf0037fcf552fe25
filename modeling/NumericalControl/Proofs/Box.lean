/-
  NumericalControl/Proofs/Box.lean
  ================================
  **What a box spans.**  A box that is grown value by value spans on each axis the values
  it was grown by (`Box.SpansOn`), and a union of boxes spans what either of them does.  The
  box of a move spans on each axis the coordinates that the move reaches: those of both its
  ends, and the ends of its circle.
-/
import NumericalControl.Proofs.Scalar.Order
import NumericalControl.Toolpath.Builder

namespace NumericalControl

open Scalar

variable {α : Type} [Scalar α]

namespace Box

/-- The box spans the values on the axis. -/
def SpansOn (box : Box α) (axis : Axis) (values : List α) : Prop :=
  Spans (box.min.get axis) (box.max.get axis) values

theorem spansOn_ofPoint (p : Position α) (axis : Axis) :
    (ofPoint p).SpansOn axis [p.get axis] :=
  spans_single (p.get axis)

theorem contains_iff {box : Box α} {p : Position α} :
    box.contains p = true ↔
      ∀ axis ∈ Axis.linear, box.min.get axis ≤ p.get axis ∧ p.get axis ≤ box.max.get axis := by
  unfold contains
  simp only [List.all_eq_true, Bool.and_eq_true, decide_eq_true_eq]

variable [OrderedScalar α]

theorem SpansOn.grow {box : Box α} {axis : Axis} {values : List α}
    (h : box.SpansOn axis values) (p : Position α) :
    (box.grow p).SpansOn axis (values ++ [p.get axis]) := by
  unfold SpansOn Box.grow
  rw [Position.get_ofAxes, Position.get_ofAxes]
  exact Spans.grow h (p.get axis)

theorem SpansOn.growOn {box : Box α} {axis : Axis} {values : List α}
    (h : box.SpansOn axis values) (other : Axis) (v : α) :
    (box.growOn other v).SpansOn axis (values ++ if other = axis then [v] else []) := by
  unfold SpansOn Box.growOn
  by_cases same : other = axis
  · subst same
    rw [Position.get_set_self, Position.get_set_self, if_pos rfl]
    exact Spans.grow h v
  · rw [Position.get_set_of_ne _ (Ne.symm same), Position.get_set_of_ne _ (Ne.symm same),
      if_neg same, List.append_nil]
    exact h

theorem SpansOn.union {box other : Box α} {axis : Axis} {values others : List α}
    (h : box.SpansOn axis values) (h' : other.SpansOn axis others) :
    (box.union other).SpansOn axis (values ++ others) := by
  simp only [SpansOn, Box.union, Box.grow, Position.get_ofAxes]
  exact Spans.union h h'

/-- A box is well formed when it spans a defined value on each axis. -/
theorem isWellFormed_iff {box : Box α} {values : Axis → List α}
    (h : ∀ axis, box.SpansOn axis (values axis)) :
    box.isWellFormed = true ↔ ∀ axis, ∃ v ∈ values axis, ¬IsNaN v := by
  simp only [isWellFormed, List.all_eq_true, decide_eq_true_eq, Axis.mem_all, forall_const]
  exact forall_congr' fun axis => (h axis).le_iff

/-- **A box fits when, on each linear axis, some value that it spans is defined and all
    defined ones lie within.** -/
theorem fitsWithin_iff {box limits : Box α} {values : Axis → List α}
    (h : ∀ axis, box.SpansOn axis (values axis)) :
    box.fitsWithin limits = true ↔ ∀ axis ∈ Axis.linear,
      (∃ v ∈ values axis, ¬IsNaN v) ∧
        ∀ v ∈ values axis, ¬IsNaN v → limits.min.get axis ≤ v ∧ v ≤ limits.max.get axis := by
  unfold fitsWithin
  rw [Bool.and_eq_true, contains_iff, contains_iff]
  constructor
  · rintro ⟨low, high⟩ axis linear
    exact ((h axis).fits_iff _ _).mp ⟨low axis linear, high axis linear⟩
  · intro within
    constructor
    · intro axis linear
      exact (((h axis).fits_iff _ _).mpr (within axis linear)).1
    · intro axis linear
      exact (((h axis).fits_iff _ _).mpr (within axis linear)).2

end Box

/-! ### The box of a move -/

/-- The coordinates on an axis that the circle of an arc reaches. -/
def Arc.reached (arc : Arc α) (axis : Axis) : List α :=
  arc.envelope.flatMap fun (other, low, high) => if other = axis then [low, high] else []

/-- The coordinates on an axis that a move reaches. -/
def reachedOn (start target : Position α) (arc : Option (Arc α)) (axis : Axis) : List α :=
  [start.get axis, target.get axis] ++ (arc.map (·.reached axis)).getD []

theorem Box.SpansOn.foldl_envelope [OrderedScalar α] {box : Box α} {axis : Axis} {values : List α}
    (h : box.SpansOn axis values) (envelope : List (Axis × α × α)) :
    (envelope.foldl (fun box (axis, low, high) => (box.growOn axis low).growOn axis high)
      box).SpansOn axis (values ++ envelope.flatMap fun (other, low, high) =>
        if other = axis then [low, high] else []) := by
  induction envelope generalizing box values with
  | nil =>
    rw [List.flatMap_nil, List.append_nil]
    exact h
  | cons entry rest ih =>
    obtain ⟨other, low, high⟩ := entry
    have grown := ih ((h.growOn other low).growOn other high)
    rw [List.flatMap_cons, ← List.append_assoc]
    by_cases same : other = axis
    · simp only [if_pos same, List.append_assoc, List.cons_append, List.nil_append] at grown ⊢
      exact grown
    · simp only [if_neg same, List.append_nil] at grown ⊢
      exact grown

/-- **The box of a move spans the coordinates that the move reaches.** -/
theorem spansOn_moveBounds [OrderedScalar α] (start target : Position α) (arc : Option (Arc α))
    (axis : Axis) :
    (moveBounds start target arc).SpansOn axis (reachedOn start target arc axis) := by
  have ends : ((Box.ofPoint start).grow target).SpansOn axis [start.get axis, target.get axis] :=
    (Box.spansOn_ofPoint start axis).grow target
  cases arc with
  | none => exact ends
  | some arc => exact ends.foldl_envelope arc.envelope

end NumericalControl
