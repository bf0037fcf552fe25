/-
  NumericalControl/Proofs/Toolpath/Fold.lean
  ==========================================
  **A builder refines the plain fold of its lines.**  Read in turn from the first memory,
  lines ask for moves: those into which the request of each line is cut, under the number
  of the line and with the memory after it (`programMoves`).  A builder that took the lines
  has exactly these moves as its commands, in this order, and its memory is the one after
  all of the lines (`Builder.refines_fold`).

  The fold reads every line, the builder only those that have words.  That both come to
  the same is a fact about the memories that lines lead to: they are settled.
-/
import NumericalControl.Proofs.Modal.Program
import NumericalControl.Proofs.Toolpath.Success

namespace NumericalControl

variable {α : Type}

/-! ### Moves -/

/-- A move that a line asks for, whatever machine carries it out. -/
structure Move (α : Type) where
  line : Nat
  motion : Motion
  isRapid : Bool
  phase : Option DrillPhase
  /-- The memory after the line. -/
  state : State α
  deriving DecidableEq, Repr

def Move.ofSegment (line : Nat) (after : State α) (segment : Segment α) : Move α :=
  ⟨line, segment.motion, segment.isRapid, segment.phase, after⟩

def Command.move (c : Command α) : Move α := ⟨c.line, c.motion, c.isRapid, c.phase, c.state⟩

def Stretch.move (stretch : Stretch α) : Move α :=
  .ofSegment stretch.line stretch.after stretch.segment

variable [Scalar α]

/-- The moves of an outcome of the line with the given number. -/
def Outcome.moves (machine : Parameters α) (line : Nat) (outcome : Outcome α) : List (Move α) :=
  (Segment.ofRequest outcome.request outcome.state.plane machine).1.map
    (.ofSegment line outcome.state)

/-- The moves that lines ask for, the lines numbered from one. -/
def programMoves (machine : Parameters α) (lines : List String) : List (Move α) :=
  ((State.initial.outcomes lines).zipIdx 1).flatMap fun (outcome, line) =>
    outcome.moves machine line

/-! ### The moves of a course -/

theorem Stretch.move_of_carried {offsets : Offsets α} {stretch : Stretch α}
    {c : Command α} (h : stretch.Carried offsets c) : c.move = stretch.move := by
  simp only [Command.move, Stretch.move, Move.ofSegment, h.line, h.motion, h.isRapid, h.phase,
    h.state]

theorem Stretch.moves_of_carried {offsets : Offsets α} {stretches : List (Stretch α)}
    {commands : List (Command α)}
    (h : List.Forall₂ (Stretch.Carried offsets) stretches commands) :
    commands.map Command.move = stretches.map Stretch.move := by
  induction h with
  | nil => rfl
  | cons carried _ ih => rw [List.map_cons, List.map_cons, move_of_carried carried, ih]

namespace Course

theorem moves_foldl_go (request : Request α) (after : State α) (segments : List (Segment α))
    (course : Course α) :
    (segments.foldl (go request after) course).stretches.map Stretch.move =
      course.stretches.map Stretch.move ++ segments.map (.ofSegment course.line after) := by
  induction segments generalizing course with
  | nil => simp
  | cons segment rest ih =>
    rw [List.foldl_cons, ih]
    simp [go, Stretch.move]

theorem moves_foldl_take (machine : Parameters α) (lines : List String) (course : Course α) :
    (lines.foldl (take machine) course).stretches.map Stretch.move =
      course.stretches.map Stretch.move ++
        ((course.state.outcomes lines).zipIdx (course.line + 1)).flatMap fun (outcome, line) =>
          outcome.moves machine line := by
  induction lines generalizing course with
  | nil => simp [State.outcomes]
  | cons text rest ih =>
    let outcome := course.state.apply (Line.read text).words
    have added : (course.take machine text).stretches.map Stretch.move =
        course.stretches.map Stretch.move ++ outcome.moves machine (course.line + 1) :=
      moves_foldl_go _ _ _ { course with line := course.line + 1 }
    have line : (course.take machine text).line = course.line + 1 := foldl_go_line
    have state : (course.take machine text).state = outcome.state := rfl
    rw [List.foldl_cons, ih, added, line, state, List.append_assoc]
    simp only [State.outcomes, List.zipIdx_cons, List.flatMap_cons]
    rfl

theorem moves_ofLines (machine : Parameters α) (lines : List String) :
    (ofLines machine lines).stretches.map Stretch.move = programMoves machine lines :=
  moves_foldl_take machine lines start

end Course

/-! ### The moves of a builder -/

/-- **The incremental builder refines the plain fold**: where the parameters make sense a
    builder starts, and once it has taken lines, its memory is the one after all of them and
    its commands are their moves.  A line without words changes nothing in any memory that
    lines lead to. -/
theorem Builder.refines_fold {setup : Setup α} (valid : setup.machine.check = .ok ()) :
    (∃ b, start setup = .ok b ∧ ∀ lines last, lines.foldlM pushLine b = .ok last →
      last.state = State.afterLines lines ∧
        last.commands.toList.map Command.move = programMoves setup.machine lines) ∧
    ∀ s : State α, s.Reachable → s.apply [] = ⟨s, .idle s.position, []⟩ := by
  constructor
  · obtain ⟨b, started⟩ := exists_start valid
    refine ⟨b, started, ?_⟩
    intro lines last taken
    obtain rfl := foldl_takeLine_of_foldlM taken
    have mirrors := mirrors_foldl_takeLine started lines
    constructor
    · rw [mirrors.state, Course.state_ofLines]
    · rw [Stretch.moves_of_carried mirrors.commands, Course.moves_ofLines]
  · intro s reachable
    exact State.apply_nil reachable.settled

/-- A line without words lies between two holes of a series. -/
theorem Builder.refines_fold_between_holes :
    let setup : Setup Float := ⟨.ofRapidFeed 5000.0, .empty⟩
    let lines := ["G81 X1 R2 Z-3 F50", "(next)", "X5"]
    ∃ b last, start setup = .ok b ∧ lines.foldlM pushLine b = .ok last ∧
      last.state = State.afterLines lines ∧
      (last.commands.toList.map fun c => (c.line, c.phase)) =
        [(1, some .position), (1, some .plunge), (1, some .retract),
          (3, some .position), (3, some .plunge), (3, some .retract)] := by
  intro setup lines
  have valid : setup.machine.check = .ok () := by decide +kernel
  obtain ⟨⟨b, started, refines⟩, -⟩ := refines_fold valid
  have taken : lines.foldlM pushLine b = .ok (lines.foldl takeLine b) := by
    apply foldlM_pushLine
    intro n limit
    rw [setup_of_start started] at limit
    cases limit
  obtain ⟨state, commands⟩ := refines lines _ taken
  refine ⟨b, _, started, taken, state, ?_⟩
  have listed : (programMoves setup.machine lines).map (fun m => (m.line, m.phase)) =
      [(1, some .position), (1, some .plunge), (1, some .retract),
        (3, some .position), (3, some .plunge), (3, some .retract)] := by
    decide +kernel
  rw [← listed, ← commands, List.map_map]
  rfl

end NumericalControl
