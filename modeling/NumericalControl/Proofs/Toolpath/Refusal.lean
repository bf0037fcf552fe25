/-
  NumericalControl/Proofs/Toolpath/Refusal.lean
  =============================================
  **When programs fail, and what a refused line leaves behind.**  A program does not build
  for one of three reasons, the first of which counts: its setup makes no sense, it has more
  lines than the machine takes, none of its lines moves (`Toolpath.fault?`).  The builder
  knows the third only from a bounding box that it lacks; but each line that moves has a
  segment, and each segment gives a command and grows the box.

  A push works on a builder in place and may break off on the way (`Builder.push`).  It breaks
  off before it changes anything.  So a refused line leaves the builder as it was, the next
  one is refused for the same reason, and whatever follows the last line within the limit
  counts for nothing (`Builder.run_pushes_of_limited`).
-/
import NumericalControl.Proofs.Toolpath.Fold
import NumericalControl.Proofs.Toolpath.Growth
import NumericalControl.Proofs.Toolpath.Pauses

namespace NumericalControl

variable {α : Type} [Scalar α]

namespace Builder

/-! ### Refusals -/

section

variable {b : Builder α} {limit : Nat}

omit [Scalar α] in
theorem refusal?_of_unlimited (unlimited : b.setup.machine.maxLines = none) :
    b.refusal? = none := by
  rw [refusal?, unlimited]
  rfl

omit [Scalar α] in
theorem refusal?_of_room (limited : b.setup.machine.maxLines = some limit)
    (room : b.line < limit) : b.refusal? = none := by
  have low : ¬limit < b.line + 1 := Nat.not_lt.mpr room
  rw [refusal?, limited, Option.filter_some, if_neg (mt of_decide_eq_true low), Option.map_none]

omit [Scalar α] in
theorem refusal?_of_full (limited : b.setup.machine.maxLines = some limit)
    (full : b.line = limit) : b.refusal? = some (.lineLimitExceeded (limit + 1) limit) := by
  have high : limit < limit + 1 := Nat.lt_succ_self limit
  rw [refusal?, limited, full, Option.filter_some, if_pos (decide_eq_true high), Option.map_some]

end

/-! ### Pushes -/

/-- The work on a line that is not refused, on a builder in place. -/
def fill (number : Nat) (text : String) : StateM (Builder α) Unit := do
  modify fun b => { b with line := number }
  let line : Line α := Line.read text
  modify fun b => b.note (line.rejected.map .unreadable)
  unless line.words.isEmpty do
    modify fun b => b.addWords (String.ofList (Text.trim text.toList)) line.words

/-- A push on a builder in place, which is still there when the push fails. -/
def push (text : String) : ExceptT (Fault α) (StateM (Builder α)) Unit := do
  let b ← get
  let number := b.line + 1
  match b.setup.machine.maxLines.filter (· < number) with
  | some limit => throw (.lineLimitExceeded number limit)
  | none => ExceptT.lift (fill number text)

/-- Pushes one after the other, whether they fail or not, with what comes of each. -/
def pushes (lines : List String) : StateM (Builder α) (List (Except (Fault α) Unit)) :=
  lines.mapM fun text => (push text).run

theorem run_fill (b : Builder α) (text : String) :
    (fill (b.line + 1) text).run b = ((), b.takeLine text) := by
  unfold fill takeLine
  dsimp only
  cases (Line.read text : Line α).words.isEmpty <;> rfl

/-- **A push answers as a line is answered, and leaves the builder after the line.** -/
theorem run_push (b : Builder α) (text : String) :
    (push text).run.run b = ((b.pushLine text).map fun _ => (), b.offer text) := by
  have opened : (push text).run.run b =
      (ExceptT.run (match b.setup.machine.maxLines.filter (· < b.line + 1) with
        | some limit => throw (Fault.lineLimitExceeded (b.line + 1) limit)
        | none => ExceptT.lift (fill (b.line + 1) text))).run b := rfl
  rw [opened]
  unfold pushLine offer refusal?
  cases b.setup.machine.maxLines.filter (· < b.line + 1) with
  | some limit => rfl
  | none =>
    rw [ExceptT.run_lift, StateT.run_map, run_fill]
    rfl

theorem run_push_of_refused {b : Builder α} {fault : Fault α} (h : b.refusal? = some fault)
    (text : String) : (push text).run.run b = (.error fault, b) := by
  rw [run_push, pushLine, offer, h]
  rfl

theorem run_push_of_accepted {b : Builder α} (h : b.refusal? = none) (text : String) :
    (push text).run.run b = (.ok (), b.takeLine text) := by
  rw [run_push, pushLine, offer, h]
  rfl

theorem fst_push_eq_error_iff {b : Builder α} {text : String} {fault : Fault α} :
    ((push text).run.run b).1 = .error fault ↔ b.refusal? = some fault := by
  cases h : b.refusal? with
  | none =>
    rw [run_push_of_accepted h]
    exact ⟨nofun, nofun⟩
  | some refused =>
    rw [run_push_of_refused h, Except.error.injEq, Option.some.injEq]

theorem run_pushes_cons (b : Builder α) (text : String) (rest : List String) :
    (pushes (text :: rest)).run b =
      (((push text).run.run b).1 :: ((pushes rest).run ((push text).run.run b).2).1,
        ((pushes rest).run ((push text).run.run b).2).2) := by
  rw [pushes, List.mapM_cons, StateT.run_bind]
  rfl

/-- A builder that refuses a line refuses every line after it for the same reason. -/
theorem run_pushes_of_refused {b : Builder α} {fault : Fault α} (h : b.refusal? = some fault)
    (lines : List String) :
    (pushes lines).run b = (List.replicate lines.length (.error fault), b) := by
  induction lines with
  | nil => rfl
  | cons text rest ih =>
    rw [run_pushes_cons, run_push_of_refused h, ih, List.length_cons, List.replicate_succ]

theorem run_pushes_of_unlimited {b : Builder α} (unlimited : b.setup.machine.maxLines = none)
    (lines : List String) :
    (pushes lines).run b = (List.replicate lines.length (.ok ()), lines.foldl takeLine b) := by
  induction lines generalizing b with
  | nil => rfl
  | cons text rest ih =>
    have next : (b.takeLine text).setup.machine.maxLines = none := by
      rw [(steps_takeLine b text).setup_eq, unlimited]
    rw [run_pushes_cons, run_push_of_accepted (refusal?_of_unlimited unlimited), ih next,
      List.length_cons, List.replicate_succ, List.foldl_cons]

/-- **As many pushes succeed as there is room for, and all others fail alike.**  What fails
    leaves nothing behind. -/
theorem run_pushes_of_limited {b : Builder α} {limit : Nat}
    (limited : b.setup.machine.maxLines = some limit) (fits : b.line ≤ limit)
    (lines : List String) :
    (pushes lines).run b =
      (List.replicate (min lines.length (limit - b.line)) (.ok ()) ++
          List.replicate (lines.length - (limit - b.line))
            (.error (.lineLimitExceeded (limit + 1) limit)),
        (lines.take (limit - b.line)).foldl takeLine b) := by
  induction lines generalizing b with
  | nil =>
    rw [List.length_nil, Nat.zero_min, Nat.zero_sub, List.take_nil]
    rfl
  | cons text rest ih =>
    rcases Nat.eq_or_lt_of_le fits with full | room
    · -- no room is left, and none comes back
      rw [run_pushes_of_refused (refusal?_of_full limited full), full, Nat.sub_self]
      rfl
    · have next : (b.takeLine text).setup.machine.maxLines = some limit := by
        rw [(steps_takeLine b text).setup_eq, limited]
      obtain ⟨left, left_eq⟩ : ∃ left, limit - b.line = left + 1 :=
        Nat.exists_eq_succ_of_ne_zero (Nat.sub_ne_zero_of_lt room)
      have left_next : limit - (b.takeLine text).line = left := by
        rw [line_takeLine]
        omega
      rw [run_pushes_cons, run_push_of_accepted (refusal?_of_room limited room),
        ih next (by rw [line_takeLine]; exact room), left_eq, left_next, List.length_cons,
        Nat.succ_min_succ, List.replicate_succ, Nat.succ_sub_succ, List.take_succ_cons,
        List.foldl_cons, List.cons_append]

/-- Lines beyond the limit are refused, the first of them first. -/
theorem foldlM_pushLine_of_overrun {lines : List String} {b : Builder α} {limit : Nat}
    (limited : b.setup.machine.maxLines = some limit) (fits : b.line ≤ limit)
    (beyond : limit < b.line + lines.length) :
    lines.foldlM pushLine b = .error (.lineLimitExceeded (limit + 1) limit) := by
  induction lines generalizing b with
  | nil => exact absurd beyond (Nat.not_lt.mpr fits)
  | cons text rest ih =>
    rw [List.foldlM_cons, pushLine]
    rcases Nat.eq_or_lt_of_le fits with full | room
    · rw [refusal?_of_full limited full]
      rfl
    · rw [refusal?_of_room limited room]
      apply ih
      · rw [(steps_takeLine b text).setup_eq]
        exact limited
      · rw [line_takeLine]
        exact room
      · rw [line_takeLine]
        rw [List.length_cons] at beyond
        omega

/-! ### Builders stop at the limit -/

/-- What the lines pushed into a builder are answered with. -/
def answers (b : Builder α) (lines : List String) : List (Except (Fault α) Unit) :=
  ((pushes lines).run b).1

/-- The builder after lines were pushed, those that it refuses included. -/
def after (b : Builder α) (lines : List String) : Builder α := ((pushes lines).run b).2

/-- How pushes into a builder fail, after any pushes whatever. -/
structure StopsAtLimit (b : Builder α) : Prop where
  /-- A push fails exactly when as many pushes have succeeded as the machine takes lines. -/
  fails_iff : ∀ lines text fault, ((push text).run.run (b.after lines)).1 = .error fault ↔
    ∃ limit, b.setup.machine.maxLines = some limit ∧ (b.answers lines).countP (·.isOk) = limit
      ∧ fault = .lineLimitExceeded (limit + 1) limit
  /-- A push that fails leaves the builder as it was. -/
  unchanged : ∀ lines text fault, ((push text).run.run (b.after lines)).1 = .error fault →
    ((push text).run.run (b.after lines)).2 = b.after lines
  /-- Every push after it fails in the same way. -/
  onward : ∀ lines text fault, ((push text).run.run (b.after lines)).1 = .error fault →
    ∀ later, (b.after lines).answers later = List.replicate later.length (.error fault)
  /-- Only the lines within the limit count, and all of those are taken. -/
  finish : ∀ limit, b.setup.machine.maxLines = some limit → ∀ lines,
    (b.after lines).finish = ((lines.take limit).foldlM pushLine b >>= Builder.finish)

section

variable {b : Builder α} {limit : Nat}

theorem after_eq (limited : b.setup.machine.maxLines = some limit) (fresh : b.line = 0)
    (lines : List String) : b.after lines = (lines.take limit).foldl takeLine b := by
  rw [after, run_pushes_of_limited limited (fresh ▸ Nat.zero_le _), fresh, Nat.sub_zero]

theorem countP_answers (limited : b.setup.machine.maxLines = some limit) (fresh : b.line = 0)
    (lines : List String) :
    (b.answers lines).countP (·.isOk) = min lines.length limit := by
  rw [answers, run_pushes_of_limited limited (fresh ▸ Nat.zero_le _), fresh, Nat.sub_zero,
    List.countP_append, List.countP_replicate, List.countP_replicate]
  rfl

theorem refusal?_after (limited : b.setup.machine.maxLines = some limit) (fresh : b.line = 0)
    (lines : List String) :
    (b.after lines).refusal? =
      if limit ≤ lines.length then some (.lineLimitExceeded (limit + 1) limit) else none := by
  have still : (b.after lines).setup.machine.maxLines = some limit := by
    rw [after_eq limited fresh, (steps_foldl_takeLine _ b).setup_eq, limited]
  have line : (b.after lines).line = min limit lines.length := by
    rw [after_eq limited fresh, line_foldl_takeLine, fresh, Nat.zero_add, List.length_take]
  split
  · exact refusal?_of_full still (line.trans (Nat.min_eq_left ‹_›))
  · exact refusal?_of_room still (line ▸ by omega)

end

/-- **A builder takes lines up to its limit**, and then refuses every line without a trace. -/
theorem stopsAtLimit_of_fresh {b : Builder α} (fresh : b.line = 0) : b.StopsAtLimit := by
  constructor
  case fails_iff =>
    intro lines text fault
    rw [fst_push_eq_error_iff]
    cases limited : b.setup.machine.maxLines with
    | none =>
      have still : (b.after lines).setup.machine.maxLines = none := by
        rw [after, run_pushes_of_unlimited limited, (steps_foldl_takeLine _ b).setup_eq, limited]
      rw [refusal?_of_unlimited still]
      exact ⟨nofun, nofun⟩
    | some limit =>
      have reached : (b.answers lines).countP (·.isOk) = limit ↔ limit ≤ lines.length := by
        rw [countP_answers limited fresh]
        omega
      rw [refusal?_after limited fresh]
      simp only [Option.some.injEq, exists_eq_left', reached]
      split <;> simp [*, eq_comm]
  case unchanged =>
    intro lines text fault failed
    rw [run_push_of_refused (fst_push_eq_error_iff.mp failed)]
  case onward =>
    intro lines text fault failed later
    rw [answers, run_pushes_of_refused (fst_push_eq_error_iff.mp failed)]
  case finish =>
    intro limit limited lines
    have within : ∀ n, b.setup.machine.maxLines = some n →
        b.line + (lines.take limit).length ≤ n := by
      intro n same
      rw [limited] at same
      rw [fresh, Nat.zero_add, ← Option.some.inj same]
      exact List.length_take_le _ _
    rw [after_eq limited fresh, foldlM_pushLine within]
    rfl

end Builder

/-! ### Lines that move -/

/-- Whatever a line comes to, it asks for moves exactly when it is not idle. -/
theorem Outcome.moves_eq_nil_iff {outcome : Outcome α} {p : Position α}
    (moves : outcome.Moves p) (machine : Parameters α) (line : Nat) :
    outcome.moves machine line = [] ↔ outcome.isIdle = true := by
  rw [Outcome.moves, List.map_eq_nil_iff]
  constructor
  · intro still
    by_contra moving
    exact Segment.ofRequest_ne_nil moves (Bool.not_eq_true _ ▸ moving) _ _ still
  · intro idle
    have motion : outcome.request.motion = none := Option.isNone_iff_eq_none.mp idle
    simp only [Segment.ofRequest, motion]

theorem State.moves_of_mem_outcomes {s : State α} {lines : List String} {outcome : Outcome α}
    (mem : outcome ∈ s.outcomes lines) : ∃ p, outcome.Moves p := by
  induction lines generalizing s with
  | nil => cases mem
  | cons text rest ih =>
    rcases List.mem_cons.mp mem with rfl | mem
    · exact ⟨_, State.moves_apply s _⟩
    · exact ih mem

/-- **A course has a stretch unless no line moves.** -/
theorem Course.stretches_eq_nil_iff (machine : Parameters α) (lines : List String) :
    (ofLines machine lines).stretches = [] ↔
      ∀ outcome ∈ (State.initial : State α).outcomes lines, outcome.isIdle = true := by
  rw [← List.map_eq_nil_iff (f := Stretch.move), moves_ofLines, programMoves,
    List.flatMap_eq_nil_iff]
  conv_rhs => rw [← List.zipIdx_map_fst 1 (State.outcomes _ lines), List.forall_mem_map]
  refine forall₂_congr fun numbered mem => ?_
  obtain ⟨p, moves⟩ := State.moves_of_mem_outcomes (List.fst_mem_of_mem_zipIdx mem)
  exact Outcome.moves_eq_nil_iff moves machine numbered.2

/-! ### Programs that do not build -/

theorem Builder.start_of_check {setup : Setup α} {fault : SetupFault α}
    (h : setup.machine.check = .error fault) :
    Builder.start setup = .error (.setup fault) := by
  unfold Parameters.check at h
  unfold Builder.start
  cases found : setup.machine.fault? with
  | none =>
    rw [found] at h
    cases h
  | some cause =>
    rw [found] at h
    exact congrArg (Except.error ∘ Fault.setup) (Except.error.inj h)

namespace Toolpath

/-- Why a program does not build, if it does not. -/
def fault? (setup : Setup α) (text : String) : Option (Fault α) :=
  match setup.machine.check with
  | .error fault => some (.setup fault)
  | .ok () =>
    match setup.machine.maxLines.filter (· < (programLines text).length) with
    | some limit => some (.lineLimitExceeded (limit + 1) limit)
    | none =>
      if ((State.initial : State α).outcomes (programLines text)).all Outcome.isIdle then
        some .emptyProgram
      else none

variable {setup : Setup α} {text : String}

/-- A builder after lines without moves cannot be finished. -/
theorem finish_eq_error {b : Builder α} (started : Builder.start setup = .ok b)
    {lines : List String} (idle : (Course.ofLines setup.machine lines).stretches = []) :
    (lines.foldl Builder.takeLine b).finish = .error .emptyProgram := by
  have mirrors := Builder.mirrors_foldl_takeLine started lines
  have bounded := (Builder.steps_foldl_takeLine lines b).keeps
    Builder.Step.bounded (Builder.bounded_of_start started)
  have empty : (lines.foldl Builder.takeLine b).commands = #[] := by
    have length := mirrors.commands.length_eq
    rw [idle] at length
    exact Array.toList_eq_nil_iff.mp (List.length_eq_zero_iff.mp length.symm)
  have unbounded : (lines.foldl Builder.takeLine b).totals.bounds = none :=
    Option.not_isSome_iff_eq_none.mp fun bounds => bounded.mp bounds empty
  simp only [Builder.finish, unbounded]

theorem build_of_start {b : Builder α} (started : Builder.start setup = .ok b) :
    Toolpath.build setup text =
      ((programLines text).foldlM Builder.pushLine b >>= Builder.finish) := by
  unfold Toolpath.build
  rw [started]
  rfl

/-- **A program builds unless there is a reason why not, and fails for that reason.** -/
theorem build_of_fault? (setup : Setup α) (text : String) :
    match fault? setup text with
    | some fault => Toolpath.build setup text = .error fault
    | none => ∃ path, Toolpath.build setup text = .ok path := by
  unfold fault?
  cases checked : setup.machine.check with
  | error fault =>
    dsimp only
    rw [Toolpath.build, Builder.start_of_check checked]
    rfl
  | ok =>
    obtain ⟨b, started⟩ := Builder.exists_start checked
    have setup_eq := Builder.setup_of_start started
    have fresh := Builder.line_of_start started
    dsimp only
    cases crossed : setup.machine.maxLines.filter (· < (programLines text).length) with
    | some limit =>
      obtain ⟨limited, beyond⟩ := Option.filter_eq_some_iff.mp crossed
      dsimp only
      rw [build_of_start started, Builder.foldlM_pushLine_of_overrun (setup_eq ▸ limited)
        (fresh ▸ Nat.zero_le _) (by simpa [fresh] using beyond)]
      rfl
    | none =>
      have within : ∀ n, setup.machine.maxLines = some n → (programLines text).length ≤ n :=
        fun n limited => by
          simpa using Option.filter_eq_none_iff.mp crossed n limited
      have taken : (programLines text).foldlM Builder.pushLine b =
          .ok ((programLines text).foldl Builder.takeLine b) :=
        Builder.foldlM_pushLine (by simpa [setup_eq, fresh] using within)
      have idle := Course.stretches_eq_nil_iff setup.machine (programLines text)
      rw [← List.all_eq_true] at idle
      dsimp only
      split_ifs with all
      · rw [build_of_start started, taken]
        exact finish_eq_error started (idle.mpr all)
      · exact exists_build checked within (mt idle.mp all)

theorem build_eq_error_iff {fault : Fault α} :
    Toolpath.build setup text = .error fault ↔ fault? setup text = some fault := by
  have decides := build_of_fault? setup text
  cases found : fault? setup text with
  | some reason =>
    rw [found] at decides
    dsimp only at decides
    rw [decides, Except.error.injEq, Option.some.injEq]
  | none =>
    rw [found] at decides
    obtain ⟨path, built⟩ := decides
    rw [built]
    exact ⟨nofun, nofun⟩

theorem exists_build_iff :
    (∃ path, Toolpath.build setup text = .ok path) ↔ fault? setup text = none := by
  constructor
  · rintro ⟨path, built⟩
    refine Option.eq_none_iff_forall_ne_some.mpr fun fault found => ?_
    rw [build_eq_error_iff.mpr found] at built
    cases built
  · intro silent
    have decides := build_of_fault? setup text
    rw [silent] at decides
    exact decides

/-- **Exactly when a program does not build, and how a builder stops.** -/
theorem refusals (setup : Setup α) (text : String) :
    (∀ fault, Toolpath.build setup text = .error fault ↔ fault? setup text = some fault) ∧
      ((∃ path, Toolpath.build setup text = .ok path) ↔ fault? setup text = none) ∧
      ∀ b, Builder.start setup = .ok b → b.StopsAtLimit :=
  ⟨fun _ => build_eq_error_iff, exists_build_iff,
    fun _ started => Builder.stopsAtLimit_of_fresh (Builder.line_of_start started)⟩

/-- Where two lines are allowed, a program that moves builds, one that does not move is none,
    and a third line is refused even so. Without a feed nothing builds. -/
theorem refusals_two_lines :
    let machine : Parameters Float := { Parameters.ofRapidFeed 5000.0 with maxLines := some 2 }
    let setup : Setup Float := ⟨machine, .empty⟩
    let feedless : Setup Float := ⟨.ofRapidFeed 0.0, .empty⟩
    (∃ b, Builder.start setup = .ok b ∧ b.StopsAtLimit) ∧
      (∃ path, Toolpath.build setup "G4 P1\nG1 X1 F100" = .ok path) ∧
      Toolpath.build setup "G4 P1\nM5" = .error .emptyProgram ∧
      Toolpath.build setup "G4 P1\nM5\nG4 P1" = .error (.lineLimitExceeded 3 2) ∧
      Toolpath.build feedless "G1 X1 F100" = .error (.setup (.rapidFeed 0.0)) := by
  intro machine setup feedless
  have valid : setup.machine.check = .ok () := by decide +kernel
  obtain ⟨b, started⟩ := Builder.exists_start valid
  have moves : fault? setup "G4 P1\nG1 X1 F100" = none := by decide +kernel
  have idle : fault? setup "G4 P1\nM5" = some .emptyProgram := by decide +kernel
  have long : fault? setup "G4 P1\nM5\nG4 P1" = some (.lineLimitExceeded 3 2) := by
    decide +kernel
  have invalid : fault? feedless "G1 X1 F100" = some (.setup (.rapidFeed 0.0)) := by
    decide +kernel
  exact ⟨⟨b, started, (refusals setup "").2.2 b started⟩, (refusals setup _).2.1.mpr moves,
    ((refusals setup _).1 _).mpr idle, ((refusals setup _).1 _).mpr long,
    ((refusals feedless _).1 _).mpr invalid⟩

end Toolpath

end NumericalControl
