/-
  NumericalControl/Proofs/Toolpath/Run.lean
  =========================================
  **Runs of a builder.**  A builder works in small steps: it counts a line, adds findings,
  adds a pause, adds the command of a segment, remembers the memory after the line
  (`Builder.Step`).  Taking or offering a line is a run of such steps, and so is every
  history of lines, so a property that holds of the first builder and is kept by each
  small step holds after any lines whatever (`steps_offer`, `steps_foldl_offer`).

  Two facts ride on the steps.  A pause is never negative, because only such P words give
  one; and no finding is on the travel limits, except those that come with a command.

  `Toolpath.run_of_build` opens a toolpath: it is the finished builder of all lines.
-/
import Mathlib.Logic.Relation
import NumericalControl.Proofs.Findings
import NumericalControl.Proofs.Modal.Line

namespace NumericalControl

variable {α : Type} [Scalar α]

namespace Builder

omit [Scalar α] in
theorem mem_note {b : Builder α} {findings : List (Finding α)} {d : Diagnostic α} :
    d ∈ (b.note findings).diagnostics ↔
      d ∈ b.diagnostics ∨ ∃ finding ∈ findings, d = ⟨b.line, finding⟩ := by
  unfold note
  rw [← Array.mem_toList_iff, Array.toList_appendList, List.mem_append, Array.mem_toList_iff,
    List.mem_map]
  simp only [eq_comm]

/-! ### Small steps -/

/-- One small step of the work on a line. -/
inductive Step : Builder α → Builder α → Prop
  | count (b : Builder α) : Step b { b with line := b.line + 1 }
  | note (b : Builder α) {findings : List (Finding α)}
      (within : ∀ finding ∈ findings, finding.kind ≠ .limit) : Step b (b.note findings)
  | pause (b : Builder α) {seconds : α} (forward : (0.0 : α) ≤ seconds) :
      Step b { b with totals := b.totals.addDwell (some seconds) }
  | segment (b : Builder α) (source : String) (after : State α) (segment : Segment α) :
      Step b (b.addSegment source after segment)
  | remember (b : Builder α) (after : State α) : Step b { b with state := after }

abbrev Steps : Builder α → Builder α → Prop := Relation.ReflTransGen Step

theorem steps_addDwell (b : Builder α) (dwell : Option α)
    (forward : ∀ seconds, dwell = some seconds → (0.0 : α) ≤ seconds) :
    Steps b { b with totals := b.totals.addDwell dwell } := by
  cases dwell with
  | none => exact .refl
  | some seconds => exact .single (.pause b (forward seconds rfl))

theorem steps_foldl_addSegment (source : String) (after : State α) (segments : List (Segment α))
    (b : Builder α) : Steps b (segments.foldl (addSegment source after) b) := by
  induction segments generalizing b with
  | nil => exact .refl
  | cons segment rest ih =>
    exact (Relation.ReflTransGen.single (.segment b source after segment)).trans (ih _)

theorem steps_addWords (b : Builder α) (source : String) (words : List (Word α)) :
    Steps b (b.addWords source words) := by
  let outcome := b.state.apply words
  let cut := Segment.ofRequest outcome.request outcome.state.plane b.setup.machine
  let findings := outcome.findings ++ b.setup.offsets.findings b.state outcome.state ++ cut.2
  have within : ∀ finding ∈ findings, finding.kind ≠ .limit := by
    intro finding mem
    rcases List.mem_append.mp mem with mem | mem
    · rcases List.mem_append.mp mem with mem | mem
      · exact (State.kind_apply mem).trans_ne Kind.noConfusion
      · exact (Offsets.kind_findings mem).trans_ne Kind.noConfusion
    · exact Segment.kind_ofRequest mem
  have noted : Steps b (b.note findings) := .single (.note b within)
  have paused := steps_addDwell (b.note findings) outcome.request.dwell
    fun _ => State.dwell_apply_nonneg
  have carried := steps_foldl_addSegment source outcome.state cut.1
    { b.note findings with totals := (b.note findings).totals.addDwell outcome.request.dwell }
  exact ((noted.trans paused).trans carried).tail (.remember _ outcome.state)

/-- Once it has counted a line, a builder takes it by small steps. -/
theorem steps_of_counted (b : Builder α) (text : String) :
    Steps { b with line := b.line + 1 } (b.takeLine text) := by
  let line : Line α := Line.read text
  have within : ∀ finding ∈ line.rejected.map (Finding.unreadable (α := α)),
      finding.kind ≠ .limit := by
    intro finding mem
    obtain ⟨piece, -, rfl⟩ := List.mem_map.mp mem
    exact Kind.noConfusion
  have noted : Steps { b with line := b.line + 1 }
      ({ b with line := b.line + 1 }.note (line.rejected.map Finding.unreadable)) :=
    .single (.note _ within)
  unfold takeLine
  dsimp only
  split
  · exact noted
  · exact noted.trans (steps_addWords _ _ _)

/-- **Taking a line is a run of small steps.** -/
theorem steps_takeLine (b : Builder α) (text : String) : Steps b (b.takeLine text) :=
  .head (.count b) (steps_of_counted b text)

theorem steps_offer (b : Builder α) (text : String) : Steps b (b.offer text) := by
  unfold offer
  split
  · exact .refl
  · exact steps_takeLine b text

theorem steps_foldl_offer (lines : List String) (b : Builder α) :
    Steps b (lines.foldl offer b) := by
  induction lines generalizing b with
  | nil => exact .refl
  | cons text rest ih => exact (steps_offer b text).trans (ih _)

/-- **What every small step keeps is kept by a run.** -/
theorem Steps.keeps {P : Builder α → Prop}
    (keep : ∀ {b next : Builder α}, Step b next → P b → P next) {b next : Builder α}
    (steps : Steps b next) (h : P b) : P next := by
  induction steps with
  | refl => exact h
  | tail _ step ih => exact keep step ih

theorem Steps.setup_eq {b next : Builder α} (steps : Steps b next) : next.setup = b.setup := by
  refine steps.keeps (P := fun other => other.setup = b.setup) ?_ rfl
  intro other next step h
  cases step with
  | count => exact h
  | note => exact h
  | pause => exact h
  | segment => exact h
  | remember => exact h

/-! ### Programs -/

theorem offer_of_pushLine {b next : Builder α} {text : String} (h : b.pushLine text = .ok next) :
    b.refusal? = none ∧ next = b.takeLine text := by
  unfold pushLine at h
  split at h
  · cases h
  · exact ⟨‹_›, (Except.ok.inj h).symm⟩

theorem foldl_takeLine_of_foldlM {lines : List String} {b last : Builder α}
    (h : lines.foldlM pushLine b = .ok last) : last = lines.foldl takeLine b := by
  induction lines generalizing b with
  | nil => exact (Except.ok.inj h).symm
  | cons text rest ih =>
    rw [List.foldlM_cons] at h
    cases hnext : b.pushLine text with
    | error fault => rw [hnext] at h; cases h
    | ok next =>
      rw [hnext] at h
      obtain ⟨-, rfl⟩ := offer_of_pushLine hnext
      exact ih h

theorem steps_foldl_takeLine (lines : List String) (b : Builder α) :
    Steps b (lines.foldl takeLine b) := by
  induction lines generalizing b with
  | nil => exact .refl
  | cons text rest ih => exact (steps_takeLine b text).trans (ih _)

theorem eq_of_start {setup : Setup α} {b : Builder α} (h : start setup = .ok b) :
    setup.machine.fault? = none ∧
      b = { setup, state := .initial, commands := #[], diagnostics := #[], line := 0,
            cursor := setup.offsets.toMachine .zero .initial .approach, stroke := .approach,
            totals := ⟨0.0, 0.0, 0.0, 0.0, 0.0, none⟩ } := by
  unfold start at h
  split at h
  · cases h
  · exact ⟨‹_›, (Except.ok.inj h).symm⟩

theorem setup_of_start {setup : Setup α} {b : Builder α} (h : start setup = .ok b) :
    b.setup = setup := by
  obtain ⟨-, rfl⟩ := eq_of_start h
  rfl

theorem line_of_start {setup : Setup α} {b : Builder α} (h : start setup = .ok b) :
    b.line = 0 := by
  obtain ⟨-, rfl⟩ := eq_of_start h
  rfl

theorem exists_start {setup : Setup α} (valid : setup.machine.check = .ok ()) :
    ∃ b, start setup = .ok b := by
  have sane : setup.machine.fault? = none := by
    unfold Parameters.check at valid
    split at valid
    · cases valid
    · assumption
  unfold start
  rw [sane]
  exact ⟨_, rfl⟩

theorem toolpath_of_finish {b : Builder α} {path : Toolpath α} (h : b.finish = .ok path) :
    path.commands = b.commands ∧ path.diagnostics = b.diagnostics
      ∧ path.stats.estimatedTime = b.totals.clock := by
  unfold finish at h
  split at h
  · cases h
  · obtain rfl := Except.ok.inj h
    exact ⟨rfl, rfl, rfl⟩

/-- The totals of a builder with a bounding box are those of its toolpath. -/
theorem stats_of_finish {b : Builder α} {path : Toolpath α} (h : b.finish = .ok path) :
    ∃ box, b.totals.bounds = some box ∧ path.stats = {
      totalDistance := b.totals.cutting + b.totals.rapid
      cuttingDistance := b.totals.cutting
      rapidDistance := b.totals.rapid
      rotaryTravel := b.totals.rotary
      dwellTime := b.totals.dwell
      estimatedTime := b.totals.clock
      boundingBox := box
      commandCount := b.commands.size } := by
  unfold finish at h
  split at h
  · cases h
  · rename_i box bounds
    obtain rfl := Except.ok.inj h
    exact ⟨box, bounds, rfl⟩

end Builder

def programLines (text : String) : List String := (Text.lines text.toList).map String.ofList

/-- **A toolpath is the finished builder of all lines of its program.** -/
theorem Toolpath.run_of_build {setup : Setup α} {text : String} {path : Toolpath α}
    (h : Toolpath.build setup text = .ok path) :
    ∃ b, Builder.start setup = .ok b ∧
      ((programLines text).foldl Builder.takeLine b).finish = .ok path := by
  unfold Toolpath.build at h
  cases hstart : Builder.start setup with
  | error fault => rw [hstart] at h; cases h
  | ok b =>
    rw [hstart] at h
    have h : ((programLines text).foldlM Builder.pushLine b >>= Builder.finish) = .ok path := h
    cases hrun : (programLines text).foldlM Builder.pushLine b with
    | error fault => rw [hrun] at h; cases h
    | ok last =>
      rw [hrun] at h
      exact ⟨b, rfl, Builder.foldl_takeLine_of_foldlM hrun ▸ h⟩

/-- **What every small step keeps holds of the builder that a toolpath comes from.** -/
theorem Toolpath.holds_of_build {setup : Setup α} {text : String} {path : Toolpath α}
    (h : Toolpath.build setup text = .ok path) {P : Builder α → Prop}
    (first : ∀ {b : Builder α}, Builder.start setup = .ok b → P b)
    (keep : ∀ {b next : Builder α}, Builder.Step b next → P b → P next) :
    ∃ b : Builder α, b.setup = setup ∧ b.finish = .ok path ∧ P b := by
  obtain ⟨b, hstart, hfinish⟩ := run_of_build h
  have steps := Builder.steps_foldl_takeLine (programLines text) b
  exact ⟨_, steps.setup_eq.trans (Builder.setup_of_start hstart), hfinish,
    steps.keeps keep (first hstart)⟩

/-- A build that was seen to pass a test gave a toolpath that passes it. -/
theorem Toolpath.exists_of_any {setup : Setup α} {text : String} {test : Toolpath α → Bool}
    (h : (Toolpath.build setup text).toOption.any test = true) :
    ∃ path, Toolpath.build setup text = .ok path ∧ test path = true := by
  cases built : Toolpath.build setup text with
  | error fault => rw [built] at h; cases h
  | ok path => rw [built] at h; exact ⟨path, rfl, h⟩

end NumericalControl
