/-
  NumericalControl/Proofs/Toolpath/Course.lean
  ============================================
  **The course of a program.**  A builder works in two spaces at once.  A `Course` is its
  half in program space: the fold of the lines over the memory of the controller, and one
  `Stretch` for each segment that a line asks for.  It knows the offsets of no machine.

  Beside its segment a stretch says where the machine stands when it begins.  A `Stand`
  is the program position reached, with the memory and the stroke by which the last
  segment was carried over; `Stand.onMachine` is the machine position of that.  Segments
  join one another, so along a course each stretch begins at the stand that the one before
  it leaves, at the program position where its own segment starts (`Stand.Leads`).  Each
  stretch is a segment of the request of its own line, read in the memory that the lines
  before it leave behind (`Course.mem_ofLines`).
-/
import Mathlib.Data.List.Induction
import NumericalControl.Compensation
import NumericalControl.Proofs.Modal.Line
import NumericalControl.Segment
import NumericalControl.Word.Line

namespace NumericalControl

variable {α : Type} [Scalar α]

/-! ### Segments join -/

/-- The segments lead from `p` to `q`, each starting where the one before it ends. -/
def Segment.Join (p : Position α) : List (Segment α) → Position α → Prop
  | [], q => p = q
  | segment :: rest, q => segment.start = p ∧ Segment.Join segment.target rest q

omit [Scalar α] in
theorem Segment.join_single {segment : Segment α} {p q : Position α}
    (hstart : segment.start = p) (htarget : segment.target = q) :
    Segment.Join p [segment] q :=
  ⟨hstart, htarget⟩

/-- An arc request gives one segment with its ends, whatever its words determine. -/
theorem Segment.ends_ofArc (request : Request α) (direction : Direction) (plane : Plane)
    (machine : Parameters α) :
    (Segment.ofArc request direction plane machine).1.start = request.start
      ∧ (Segment.ofArc request direction plane machine).1.target = request.target := by
  unfold Segment.ofArc
  dsimp only
  split <;> exact ⟨rfl, rfl⟩

/-- **The segments of a line lead from the position before it to the one after it.** -/
theorem Segment.join_ofRequest {outcome : Outcome α} {p : Position α}
    (moves : outcome.Moves p) (plane : Plane) (machine : Parameters α) :
    Segment.Join p (Segment.ofRequest outcome.request plane machine).1
      outcome.state.position := by
  obtain ⟨hstart, htarget, hidle, hhole⟩ := moves
  unfold Segment.ofRequest
  split
  · exact (hidle ‹_›).symm
  · exact Segment.join_single hstart htarget
  · exact Segment.join_single hstart htarget
  · rename_i direction _
    obtain ⟨arcStart, arcTarget⟩ := Segment.ends_ofArc outcome.request direction plane machine
    exact Segment.join_single (arcStart.trans hstart) (arcTarget.trans htarget)
  · rename_i drilling
    obtain ⟨hole, hole_eq⟩ := Option.isSome_iff_exists.mp (hhole drilling)
    rw [hole_eq]
    exact ⟨hstart, rfl, rfl, htarget⟩

/-! ### Stands and stretches -/

/-- Where the machine stands: a program position, with the memory and the stroke by which
    it was carried over. -/
structure Stand (α : Type) where
  place : Position α
  frame : State α
  stroke : Stroke

namespace Stand

def initial : Stand α := ⟨.zero, .initial, .approach⟩

def onMachine (offsets : Offsets α) (st : Stand α) : Position α :=
  offsets.toMachine st.place st.frame st.stroke

/-- The stand that a segment leads to, on a line with the given memory after it. -/
def next (st : Stand α) (after : State α) (segment : Segment α) : Stand α where
  place := segment.target
  frame := after
  stroke := (Stroke.between? segment.start segment.target after.plane.normal).getD st.stroke

end Stand

/-- A segment of a program, with where the machine stands before it and what its line asks
    for and leaves behind. -/
structure Stretch (α : Type) where
  stand : Stand α
  line : Nat
  request : Request α
  after : State α
  segment : Segment α

/-- Where the machine stands after a stretch. -/
def Stretch.leave (stretch : Stretch α) : Stand α :=
  stretch.stand.next stretch.after stretch.segment

/-- The stretches lead from one stand to another, and each starts at its stand's place. -/
def Stand.Leads (st : Stand α) : List (Stretch α) → Stand α → Prop
  | [], goal => st = goal
  | stretch :: rest, goal =>
    stretch.stand = st ∧ stretch.segment.start = st.place ∧ stretch.leave.Leads rest goal

namespace Stand

theorem leads_append {st mid goal : Stand α} {first second : List (Stretch α)}
    (h₁ : st.Leads first mid) (h₂ : mid.Leads second goal) : st.Leads (first ++ second) goal := by
  induction first generalizing st with
  | nil => rw [show st = mid from h₁]; exact h₂
  | cons stretch rest ih => exact ⟨h₁.1, h₁.2.1, ih h₁.2.2⟩

theorem Leads.place_eq {st goal : Stand α} {stretches : List (Stretch α)}
    (h : st.Leads stretches goal) {stretch : Stretch α} (mem : stretch ∈ stretches) :
    stretch.segment.start = stretch.stand.place := by
  induction stretches generalizing st with
  | nil => cases mem
  | cons first rest ih =>
    obtain ⟨stand, start, onward⟩ := h
    rcases List.mem_cons.mp mem with rfl | mem
    · rw [stand, start]
    · exact ih onward mem

theorem Leads.head_eq {st goal : Stand α} {stretches : List (Stretch α)}
    (h : st.Leads stretches goal) {stretch : Stretch α} (first : stretches[0]? = some stretch) :
    stretch.stand = st := by
  cases stretches with
  | nil => cases first
  | cons head rest =>
    obtain rfl : head = stretch := Option.some.inj first
    exact h.1

theorem Leads.succ_eq {st goal : Stand α} {stretches : List (Stretch α)}
    (h : st.Leads stretches goal) {i : Nat} {before stretch : Stretch α}
    (hbefore : stretches[i]? = some before) (hnext : stretches[i + 1]? = some stretch) :
    stretch.stand = before.leave := by
  induction stretches generalizing st i with
  | nil => cases hbefore
  | cons head rest ih =>
    obtain ⟨-, -, onward⟩ := h
    cases i with
    | zero =>
      obtain rfl : head = before := Option.some.inj hbefore
      exact onward.head_eq hnext
    | succ i => exact ih onward hbefore hnext

theorem Leads.last_eq {st goal : Stand α} {stretches : List (Stretch α)}
    (h : st.Leads stretches goal) {stretch : Stretch α} (last : stretches.getLast? = some stretch) :
    goal = stretch.leave := by
  induction stretches generalizing st with
  | nil => cases last
  | cons head rest ih =>
    obtain ⟨-, -, onward⟩ := h
    cases rest with
    | nil =>
      obtain rfl : head = stretch := Option.some.inj last
      exact onward.symm
    | cons second rest =>
      rw [List.getLast?_cons_cons] at last
      exact ih onward last

end Stand

/-! ### Courses -/

/-- The memory of the controller after lines. -/
def State.afterLines (lines : List String) : State α :=
  lines.foldl (fun s text => (s.apply (Line.read text).words).state) .initial

theorem State.afterLines_append (earlier : List String) (text : String) :
    (State.afterLines (earlier ++ [text]) : State α) =
      ((State.afterLines earlier).apply (Line.read text).words).state :=
  List.foldl_append

structure Course (α : Type) where
  state : State α
  /-- Number of the last line taken, zero before the first. -/
  line : Nat
  stand : Stand α
  stretches : List (Stretch α)

namespace Course

def start : Course α := ⟨.initial, 0, .initial, []⟩

/-- Goes along a segment of the current line. -/
def go (request : Request α) (after : State α) (course : Course α) (segment : Segment α) :
    Course α :=
  { course with
    stand := course.stand.next after segment
    stretches := course.stretches ++ [⟨course.stand, course.line, request, after, segment⟩] }

/-- Takes the words of a further line. -/
def takeWords (machine : Parameters α) (course : Course α) (words : List (Word α)) : Course α :=
  let outcome := course.state.apply words
  let segments := (Segment.ofRequest outcome.request outcome.state.plane machine).1
  { segments.foldl (go outcome.request outcome.state) { course with line := course.line + 1 } with
    state := outcome.state }

def take (machine : Parameters α) (course : Course α) (text : String) : Course α :=
  course.takeWords machine (Line.read text).words

def ofLines (machine : Parameters α) (lines : List String) : Course α :=
  lines.foldl (take machine) start

/-- What holds of every course: its memory is settled, the machine stands at the position
    in memory, and the stretches lead there from the initial stand. -/
structure Sound (course : Course α) : Prop where
  settled : course.state.Settled
  place : course.stand.place = course.state.position
  leads : Stand.initial.Leads course.stretches course.stand

theorem sound_start : (start : Course α).Sound := ⟨State.settled_initial, rfl, rfl⟩

theorem leads_foldl_go (request : Request α) (after : State α) {segments : List (Segment α)}
    {q : Position α} (course : Course α) (join : Segment.Join course.stand.place segments q)
    (leads : Stand.initial.Leads course.stretches course.stand) :
    (segments.foldl (go request after) course).stand.place = q
      ∧ Stand.initial.Leads (segments.foldl (go request after) course).stretches
          (segments.foldl (go request after) course).stand := by
  induction segments generalizing course with
  | nil => exact ⟨join, leads⟩
  | cons segment rest ih =>
    obtain ⟨hstart, join⟩ := join
    have onward : Stand.initial.Leads (course.go request after segment).stretches
        (course.go request after segment).stand :=
      Stand.leads_append leads ⟨rfl, hstart, rfl⟩
    exact ih _ join onward

theorem Sound.takeWords {course : Course α} (h : course.Sound) (machine : Parameters α)
    (words : List (Word α)) : (course.takeWords machine words).Sound := by
  have join := Segment.join_ofRequest (State.moves_apply course.state words)
    (course.state.apply words).state.plane machine
  rw [← h.place] at join
  obtain ⟨place, leads⟩ := leads_foldl_go (course.state.apply words).request
    (course.state.apply words).state { course with line := course.line + 1 } join h.leads
  exact ⟨State.settled_apply _ _, place, leads⟩

theorem sound_ofLines (machine : Parameters α) (lines : List String) :
    (ofLines machine lines).Sound := by
  suffices h : ∀ course : Course α, course.Sound → (lines.foldl (take machine) course).Sound from
    h start sound_start
  induction lines with
  | nil => exact fun _ h => h
  | cons text rest ih => exact fun course h => ih _ (h.takeWords machine _)

/-- Each stretch that a line adds is one of the segments of its request. -/
theorem mem_foldl_go {request : Request α} {after : State α} {segments : List (Segment α)}
    {course : Course α} {stretch : Stretch α}
    (mem : stretch ∈ (segments.foldl (go request after) course).stretches) :
    stretch ∈ course.stretches ∨
      stretch.line = course.line ∧ stretch.request = request ∧ stretch.after = after
        ∧ stretch.segment ∈ segments := by
  induction segments generalizing course with
  | nil => exact .inl mem
  | cons segment rest ih =>
    rcases ih mem with mem | ⟨line, request_eq, after_eq, mem⟩
    · rcases List.mem_append.mp mem with mem | mem
      · exact .inl mem
      · rw [List.mem_singleton.mp mem]
        exact .inr ⟨rfl, rfl, rfl, List.mem_cons_self⟩
    · exact .inr ⟨line, request_eq, after_eq, List.mem_cons_of_mem _ mem⟩

theorem foldl_go_line {request : Request α} {after : State α} {segments : List (Segment α)}
    {course : Course α} : (segments.foldl (go request after) course).line = course.line := by
  induction segments generalizing course with
  | nil => rfl
  | cons segment rest ih => exact ih

theorem ofLines_append (machine : Parameters α) (earlier : List String) (text : String) :
    ofLines machine (earlier ++ [text]) = (ofLines machine earlier).take machine text :=
  List.foldl_append

theorem line_ofLines (machine : Parameters α) (lines : List String) :
    (ofLines machine lines).line = lines.length := by
  induction lines using List.reverseRecOn with
  | nil => rfl
  | append_singleton earlier text ih =>
    rw [ofLines_append, List.length_append, ← ih]
    exact foldl_go_line

theorem stretches_single (machine : Parameters α) (text : String) :
    (ofLines machine [text]).stretches =
      let outcome := (State.initial : State α).apply (Line.read text).words
      let segments := (Segment.ofRequest outcome.request outcome.state.plane machine).1
      (segments.foldl (go outcome.request outcome.state) { start with line := 1 }).stretches := rfl

theorem state_ofLines (machine : Parameters α) (lines : List String) :
    (ofLines machine lines).state = State.afterLines lines := by
  induction lines using List.reverseRecOn with
  | nil => rfl
  | append_singleton earlier text ih =>
    rw [ofLines_append, State.afterLines_append, ← ih]
    rfl

/-- **A stretch is a segment of the request of its line**, read in the memory after the
    lines before it. -/
theorem mem_ofLines {machine : Parameters α} {lines : List String} {stretch : Stretch α}
    (mem : stretch ∈ (ofLines machine lines).stretches) :
    ∃ earlier text later, lines = earlier ++ text :: later ∧ stretch.line = earlier.length + 1 ∧
      let outcome := (State.afterLines earlier).apply (Line.read text).words
      stretch.request = outcome.request ∧ stretch.after = outcome.state ∧
        stretch.segment ∈ (Segment.ofRequest outcome.request outcome.state.plane machine).1 := by
  induction lines using List.reverseRecOn with
  | nil => cases mem
  | append_singleton earlier text ih =>
    rw [ofLines_append] at mem
    rcases mem_foldl_go mem with mem | ⟨line, request, after, mem⟩
    · obtain ⟨first, other, later, rfl, found⟩ := ih mem
      exact ⟨first, other, later ++ [text], by rw [List.append_assoc, List.cons_append], found⟩
    · rw [state_ofLines] at request after mem
      rw [line_ofLines] at line
      exact ⟨earlier, text, [], rfl, line, request, after, mem⟩

theorem takeWords_nil {course : Course α} (h : course.state.Settled) (machine : Parameters α) :
    course.takeWords machine [] = { course with line := course.line + 1 } := by
  unfold Course.takeWords
  rw [State.apply_nil h]
  rfl

end Course

end NumericalControl
