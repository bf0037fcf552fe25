/-
  NumericalControl/Proofs/Toolpath/Success.lean
  =============================================
  **When a build succeeds.**  A builder takes every line as long as their number is within
  the limit (`foldlM_pushLine`), and it can be finished once it has a command
  (`bounds_isSome_iff`).  So a program builds when its setup makes sense, its lines are
  within the limit, and its course has a stretch (`Toolpath.exists_build`).
-/
import NumericalControl.Proofs.Toolpath.Mirror

namespace NumericalControl

variable {α : Type} [Scalar α]

namespace Builder

/-! ### The count of lines -/

theorem line_foldl_addSegment (source : String) (after : State α) (segments : List (Segment α))
    (b : Builder α) : (segments.foldl (addSegment source after) b).line = b.line := by
  induction segments generalizing b with
  | nil => rfl
  | cons segment rest ih => exact ih _

theorem line_takeLine (b : Builder α) (text : String) : (b.takeLine text).line = b.line + 1 := by
  unfold takeLine
  dsimp only
  split
  · rfl
  · exact line_foldl_addSegment _ _ _ _

/-- **Lines within the limit are all taken.** -/
theorem foldlM_pushLine {lines : List String} {b : Builder α}
    (within : ∀ n, b.setup.machine.maxLines = some n → b.line + lines.length ≤ n) :
    lines.foldlM pushLine b = .ok (lines.foldl takeLine b) := by
  induction lines generalizing b with
  | nil => rfl
  | cons text rest ih =>
    have accepted : b.refusal? = none := by
      unfold refusal?
      rw [Option.map_eq_none_iff, Option.filter_eq_none_iff]
      intro n limit
      have := within n limit
      rw [List.length_cons] at this
      rw [decide_eq_true_iff]
      omega
    have pushed : b.pushLine text = .ok (b.takeLine text) := by
      unfold pushLine
      rw [accepted]
    rw [List.foldlM_cons, pushed, List.foldl_cons]
    apply ih
    intro n limit
    rw [(steps_takeLine b text).setup_eq] at limit
    have := within n limit
    rw [List.length_cons] at this
    rw [line_takeLine]
    omega

/-! ### The first command -/

/-- There is a bounding box when there is a command. -/
def Bounded (b : Builder α) : Prop := b.totals.bounds.isSome ↔ b.commands ≠ #[]

theorem bounded_of_start {setup : Setup α} {b : Builder α} (h : start setup = .ok b) :
    b.Bounded := by
  obtain ⟨-, rfl⟩ := eq_of_start h
  exact ⟨fun h => Bool.noConfusion h, fun h => absurd rfl h⟩

theorem Step.bounded {b next : Builder α} (step : Step b next) (h : b.Bounded) :
    next.Bounded := by
  cases step with
  | count => exact h
  | note => exact h
  | pause => exact h
  | remember => exact h
  | segment source after segment =>
    exact ⟨fun _ => Array.push_ne_empty, fun _ => rfl⟩

theorem bounds_of_finish {b : Builder α} {path : Toolpath α} (h : b.finish = .ok path) :
    b.totals.bounds.isSome := by
  cases bounds : b.totals.bounds with
  | some box => rfl
  | none =>
    simp only [finish, bounds] at h
    cases h

end Builder

/-- A toolpath has a command. -/
theorem Toolpath.commands_ne_empty {setup : Setup α} {text : String} {path : Toolpath α}
    (built : Toolpath.build setup text = .ok path) : path.commands ≠ #[] := by
  obtain ⟨b, -, hfinish, bounded⟩ :=
    holds_of_build built Builder.bounded_of_start Builder.Step.bounded
  rw [(Builder.toolpath_of_finish hfinish).1]
  exact bounded.mp (Builder.bounds_of_finish hfinish)

/-- **A program with a stretch builds, when its setup makes sense and its lines are within
    the limit.** -/
theorem Toolpath.exists_build {setup : Setup α} {text : String}
    (valid : setup.machine.check = .ok ())
    (within : ∀ n, setup.machine.maxLines = some n → (programLines text).length ≤ n)
    (moves : (Course.ofLines setup.machine (programLines text)).stretches ≠ []) :
    ∃ path, Toolpath.build setup text = .ok path := by
  obtain ⟨b, hstart⟩ := Builder.exists_start valid
  have hsetup := Builder.setup_of_start hstart
  have hline := Builder.line_of_start hstart
  have taken : (programLines text).foldlM Builder.pushLine b =
      .ok ((programLines text).foldl Builder.takeLine b) := by
    apply Builder.foldlM_pushLine
    intro n limit
    rw [hsetup] at limit
    rw [hline, Nat.zero_add]
    exact within n limit
  have bounded := (Builder.steps_foldl_takeLine (programLines text) b).keeps
    Builder.Step.bounded (Builder.bounded_of_start hstart)
  have mirrors := Builder.mirrors_foldl_takeLine hstart (programLines text)
  have commands : ((programLines text).foldl Builder.takeLine b).commands ≠ #[] := by
    intro empty
    have length := mirrors.commands.length_eq
    rw [empty] at length
    exact moves (List.length_eq_zero_iff.mp length)
  obtain ⟨box, hbox⟩ := Option.isSome_iff_exists.mp (bounded.mpr commands)
  unfold Toolpath.build
  rw [hstart]
  change ∃ path, ((programLines text).foldlM Builder.pushLine b >>= Builder.finish) = .ok path
  rw [taken]
  change ∃ path, ((programLines text).foldl Builder.takeLine b).finish = .ok path
  unfold Builder.finish
  rw [hbox]
  exact ⟨_, rfl⟩

end NumericalControl
