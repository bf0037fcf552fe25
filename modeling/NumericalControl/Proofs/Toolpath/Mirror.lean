/-
  NumericalControl/Proofs/Toolpath/Mirror.lean
  ============================================
  **A builder mirrors its course.**  The commands of a builder and the stretches of the
  course of its lines correspond one to one: each command carries its stretch from the
  stand where that begins to the stand that it leaves (`Stretch.Carried`), and the cursor
  is the machine position where the course stands (`Builder.Mirrors`).

  A builder passes over a line without words, where the course applies the empty list of
  words.  Both come to the same, because a course's memory is settled (`mirrors_takeLine`).
-/
import Mathlib.Data.List.Forall2
import NumericalControl.Proofs.Toolpath.Course
import NumericalControl.Proofs.Toolpath.Run

namespace NumericalControl

variable {α : Type} [Scalar α]

/-- The command carries the stretch to the machine. -/
structure Stretch.Carried (offsets : Offsets α) (stretch : Stretch α) (c : Command α) : Prop where
  line : c.line = stretch.line
  motion : c.motion = stretch.segment.motion
  isRapid : c.isRapid = stretch.segment.isRapid
  phase : c.phase = stretch.segment.phase
  state : c.state = stretch.after
  start : c.start = stretch.stand.onMachine offsets
  target : c.target = stretch.leave.onMachine offsets
  arc : c.arc = stretch.segment.arc.map fun arc =>
    arc.rebased (offsets.centerToMachine arc.center stretch.after) c.start c.target

theorem Stretch.exists_carried {offsets : Offsets α} {stretches : List (Stretch α)}
    {commands : Array (Command α)}
    (h : List.Forall₂ (Stretch.Carried offsets) stretches commands.toList) {i : Nat}
    {c : Command α} (hc : commands[i]? = some c) :
    ∃ stretch, stretches[i]? = some stretch ∧ stretch.Carried offsets c := by
  rw [← Array.getElem?_toList] at hc
  obtain ⟨hi, rfl⟩ := List.getElem?_eq_some_iff.mp hc
  have hi' : i < stretches.length := h.length_eq ▸ hi
  exact ⟨stretches[i], List.getElem?_eq_getElem hi', h.get hi' hi⟩

namespace Builder

/-- The builder is where the course is, and its commands carry the stretches. -/
structure Mirrors (b : Builder α) (course : Course α) : Prop where
  state : b.state = course.state
  line : b.line = course.line
  stroke : b.stroke = course.stand.stroke
  cursor : b.cursor = course.stand.onMachine b.setup.offsets
  commands : List.Forall₂ (Stretch.Carried b.setup.offsets) course.stretches b.commands.toList

theorem mirrors_start {setup : Setup α} {b : Builder α} (h : start setup = .ok b) :
    b.Mirrors .start := by
  obtain ⟨-, rfl⟩ := eq_of_start h
  exact ⟨rfl, rfl, rfl, rfl, .nil⟩

theorem Mirrors.carried {b : Builder α} {course : Course α} (h : b.Mirrors course) {i : Nat}
    {c : Command α} (hc : b.commands[i]? = some c) :
    ∃ stretch, course.stretches[i]? = some stretch ∧ stretch.Carried b.setup.offsets c :=
  Stretch.exists_carried h.commands hc

theorem Mirrors.carried_last {b : Builder α} {course : Course α} (h : b.Mirrors course)
    {c : Command α} (hc : b.commands.back? = some c) :
    ∃ stretch, course.stretches.getLast? = some stretch ∧ stretch.Carried b.setup.offsets c := by
  rw [Array.back?_eq_getElem?] at hc
  obtain ⟨stretch, hstretch, carried⟩ := h.carried hc
  refine ⟨stretch, ?_, carried⟩
  rw [List.getLast?_eq_getElem?, h.commands.length_eq]
  exact hstretch

theorem mirrors_addSegment {b : Builder α} {course : Course α} (h : b.Mirrors course)
    (source : String) (request : Request α) (after : State α) (segment : Segment α) :
    (b.addSegment source after segment).Mirrors (course.go request after segment) := by
  have stroke : b.strokeOf after segment = (course.stand.next after segment).stroke := by
    unfold strokeOf Stand.next
    rw [h.stroke]
  have target : (b.commandOf source after segment).target =
      (course.stand.next after segment).onMachine b.setup.offsets := by
    unfold Stand.onMachine
    rw [← stroke]
    rfl
  refine ⟨h.state, h.line, stroke, target, ?_⟩
  rw [show (b.addSegment source after segment).commands.toList =
    b.commands.toList ++ [b.commandOf source after segment] from Array.toList_push]
  have carried : Stretch.Carried b.setup.offsets
      ⟨course.stand, course.line, request, after, segment⟩ (b.commandOf source after segment) :=
    ⟨h.line, rfl, rfl, rfl, rfl, h.cursor, target, rfl⟩
  exact List.rel_append h.commands (.cons carried .nil)

theorem mirrors_foldl_addSegment (source : String) (request : Request α) (after : State α)
    (segments : List (Segment α)) {b : Builder α} {course : Course α} (h : b.Mirrors course) :
    (segments.foldl (addSegment source after) b).Mirrors
      (segments.foldl (Course.go request after) course) := by
  induction segments generalizing b course with
  | nil => exact h
  | cons segment rest ih => exact ih (mirrors_addSegment h source request after segment)

theorem mirrors_addWords {b : Builder α} {course : Course α}
    (h : b.Mirrors { course with line := course.line + 1 }) (source : String)
    (words : List (Word α)) :
    (b.addWords source words).Mirrors (course.takeWords b.setup.machine words) := by
  obtain ⟨state, line, stand, stretches⟩ := course
  obtain rfl : b.state = state := h.state
  let outcome := b.state.apply words
  let cut := Segment.ofRequest outcome.request outcome.state.plane b.setup.machine
  let noted := b.note (outcome.findings ++ b.setup.offsets.findings b.state outcome.state ++ cut.2)
  let paused : Builder α := { noted with totals := noted.totals.addDwell outcome.request.dwell }
  -- findings and pauses leave the mirror as it is
  have hpaused : paused.Mirrors ⟨b.state, line + 1, stand, stretches⟩ :=
    ⟨h.state, h.line, h.stroke, h.cursor, h.commands⟩
  have carried := mirrors_foldl_addSegment source outcome.request outcome.state cut.1 hpaused
  exact ⟨rfl, carried.line, carried.stroke, carried.cursor, carried.commands⟩

/-- **Taking a line keeps the mirror.** -/
theorem mirrors_takeLine {b : Builder α} {course : Course α} (sound : course.Sound)
    (h : b.Mirrors course) (text : String) :
    (b.takeLine text).Mirrors (course.take b.setup.machine text) := by
  let line : Line α := Line.read text
  have counted : ({ b with line := b.line + 1 }.note (line.rejected.map .unreadable)).Mirrors
      { course with line := course.line + 1 } :=
    ⟨h.state, congrArg (· + 1) h.line, h.stroke, h.cursor, h.commands⟩
  unfold takeLine Course.take
  dsimp only
  split
  · rename_i empty
    rw [List.isEmpty_iff.mp empty, Course.takeWords_nil sound.settled]
    exact counted
  · exact mirrors_addWords counted _ _

theorem mirrors_foldl_takeLine {setup : Setup α} {b : Builder α} (hstart : start setup = .ok b)
    (lines : List String) :
    (lines.foldl takeLine b).Mirrors (Course.ofLines setup.machine lines) := by
  suffices h : ∀ (b : Builder α) (course : Course α), b.setup = setup → course.Sound →
      b.Mirrors course →
      (lines.foldl takeLine b).Mirrors (lines.foldl (Course.take setup.machine) course) from
    h b .start (setup_of_start hstart) Course.sound_start (mirrors_start hstart)
  induction lines with
  | nil => exact fun _ _ _ _ h => h
  | cons text rest ih =>
    intro b course hsetup sound h
    have next := mirrors_takeLine sound h text
    rw [hsetup] at next
    exact ih _ _ ((steps_takeLine b text).setup_eq.trans hsetup) (sound.takeWords _ _) next

theorem state_foldl_takeLine {setup : Setup α} {b : Builder α} (hstart : start setup = .ok b)
    (lines : List String) : (lines.foldl takeLine b).state = State.afterLines lines := by
  rw [(mirrors_foldl_takeLine hstart lines).state, Course.state_ofLines]

theorem settled_foldl_takeLine {setup : Setup α} {b : Builder α} (hstart : start setup = .ok b)
    (lines : List String) : (lines.foldl takeLine b).state.Settled := by
  rw [(mirrors_foldl_takeLine hstart lines).state]
  exact (Course.sound_ofLines _ _).settled

/-- After any lines that are offered, a builder mirrors the course of some lines: of those
    that were not refused. -/
theorem exists_mirrors_foldl_offer {setup : Setup α} {b : Builder α}
    (hstart : start setup = .ok b) (lines : List String) :
    ∃ course : Course α, course.Sound ∧ (lines.foldl offer b).Mirrors course := by
  suffices h : ∀ (b : Builder α) (course : Course α), course.Sound → b.Mirrors course →
      ∃ course : Course α, course.Sound ∧ (lines.foldl offer b).Mirrors course from
    h b .start Course.sound_start (mirrors_start hstart)
  induction lines with
  | nil => exact fun _ course sound h => ⟨course, sound, h⟩
  | cons text rest ih =>
    intro b course sound h
    rw [List.foldl_cons]
    unfold offer
    split
    · exact ih b course sound h
    · exact ih _ _ (sound.takeWords _ _) (mirrors_takeLine sound h text)

end Builder

/-- **The commands of a toolpath carry the stretches of its program.** -/
theorem Toolpath.carried {setup : Setup α} {text : String} {path : Toolpath α}
    (built : Toolpath.build setup text = .ok path) :
    List.Forall₂ (Stretch.Carried setup.offsets)
      (Course.ofLines setup.machine (programLines text)).stretches path.commands.toList := by
  obtain ⟨b, hstart, hfinish⟩ := Toolpath.run_of_build built
  have mirrors := Builder.mirrors_foldl_takeLine hstart (programLines text)
  have hsetup := (Builder.steps_foldl_takeLine (programLines text) b).setup_eq.trans
    (Builder.setup_of_start hstart)
  rw [(Builder.toolpath_of_finish hfinish).1, ← hsetup]
  rw [← hsetup] at mirrors
  exact mirrors.commands

end NumericalControl
