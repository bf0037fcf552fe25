/-
  NumericalControl/Proofs/Toolpath/Renumbering.lean
  =================================================
  **A line that holds nothing only renumbers.**  A blank line, a comment and the percent
  sign at the ends of a program have neither words nor pieces to report, and a builder only
  counts them.  The number of a line goes into the commands and the findings of that line
  and nowhere else: the memory, the path, the times and the totals do not know it.  So a
  builder that has counted one line more takes a line as it would have without, and what
  the line adds stands under a number one larger (`Builder.renumber_takeLine`).

  A program with such a line in it therefore leads to the toolpath of the program without
  the line, renumbered behind it, or to the same fault (`Toolpath.ofLines_insert`).
-/
import NumericalControl.Proofs.Toolpath.Growth

namespace NumericalControl

/-- The number of a line once a further line stands behind the first `k`. -/
def renumber (k line : Nat) : Nat := if k < line then line + 1 else line

theorem renumber_of_lt {k line : Nat} (h : k < line) : renumber k line = line + 1 := if_pos h

theorem renumber_of_le {k line : Nat} (h : line ≤ k) : renumber k line = line :=
  if_neg (Nat.not_lt.mpr h)

variable {α : Type}

def Command.renumber (k : Nat) (c : Command α) : Command α :=
  { c with line := NumericalControl.renumber k c.line }

def Diagnostic.renumber (k : Nat) (d : Diagnostic α) : Diagnostic α :=
  { d with line := NumericalControl.renumber k d.line }

def Toolpath.renumber (k : Nat) (path : Toolpath α) : Toolpath α :=
  { path with
    commands := path.commands.map (Command.renumber k)
    diagnostics := path.diagnostics.map (Diagnostic.renumber k) }

namespace Builder

/-- The builder that has counted one line more, behind the first `k`. -/
def renumber (k : Nat) (b : Builder α) : Builder α :=
  { b with
    line := b.line + 1
    commands := b.commands.map (Command.renumber k)
    diagnostics := b.diagnostics.map (Diagnostic.renumber k) }

variable {k : Nat} {b : Builder α}

theorem renumber_note (h : k < b.line) (findings : List (Finding α)) :
    (b.note findings).renumber k = (b.renumber k).note findings := by
  have noted : findings.map (Diagnostic.renumber k ∘ Diagnostic.mk b.line) =
      findings.map (Diagnostic.mk (b.line + 1)) := by
    simp [Function.comp_def, Diagnostic.renumber, renumber_of_lt h]
  have diagnostics : (b.note findings).diagnostics.map (Diagnostic.renumber k) =
      b.diagnostics.map (Diagnostic.renumber k) ++
        findings.map (Diagnostic.mk (b.line + 1)) := by
    refine Array.toList_inj.mp ?_
    simp [note, noted]
  simp only [renumber, diagnostics]
  rfl

/-- While no line behind the first ones was taken there is nothing to renumber. -/
theorem renumber_of_numbered (h : b.Numbered) :
    b.renumber b.line = { b with line := b.line + 1 } := by
  have commands : b.commands.map (Command.renumber b.line) = b.commands := by
    refine (Array.map_congr_left ?_).trans (Array.map_id _)
    intro c mem
    simp [Command.renumber, renumber_of_le (h.commands.le c (Array.mem_toList_iff.mpr mem))]
  have diagnostics : b.diagnostics.map (Diagnostic.renumber b.line) = b.diagnostics := by
    refine (Array.map_congr_left ?_).trans (Array.map_id _)
    intro d mem
    simp [Diagnostic.renumber, renumber_of_le (h.diagnostics.le d (Array.mem_toList_iff.mpr mem))]
  simp only [renumber, commands, diagnostics]

variable [Scalar α]

/-! ### One line -/

theorem renumber_commandOf (h : k < b.line) (source : String) (after : State α)
    (segment : Segment α) :
    (b.commandOf source after segment).renumber k =
      (b.renumber k).commandOf source after segment := by
  have index : (b.renumber k).commands.size = b.commands.size := Array.size_map
  have line : NumericalControl.renumber k b.line = b.line + 1 := renumber_of_lt h
  simp only [commandOf, index, Command.renumber, line]
  rfl

theorem renumber_addSegment (h : k < b.line) (source : String) (after : State α)
    (segment : Segment α) :
    (b.addSegment source after segment).renumber k =
      (b.renumber k).addSegment source after segment := by
  let command := b.commandOf source after segment
  let findings := commandFindings b.setup.machine command
  have carried : command.renumber k = (b.renumber k).commandOf source after segment :=
    renumber_commandOf h source after segment
  have noted : (b.note findings).renumber k = (b.renumber k).note findings :=
    renumber_note h findings
  have commands : (b.commands.push command).map (Command.renumber k) =
      (b.renumber k).commands.push (command.renumber k) := Array.map_push
  let totals := b.totals.addMove command.isRapid command.length command.rotaryTravel
    command.duration command.bounds
  -- only the commands and the findings hold numbers of lines
  calc (b.addSegment source after segment).renumber k
    _ = { (b.note findings).renumber k with
          commands := (b.commands.push command).map (Command.renumber k)
          cursor := command.target
          stroke := b.strokeOf after segment
          totals } := rfl
    _ = { (b.renumber k).note findings with
          commands := (b.renumber k).commands.push (command.renumber k)
          cursor := command.target
          stroke := b.strokeOf after segment
          totals } := by rw [noted, commands]
    _ = (b.renumber k).addSegment source after segment := by
      simp only [addSegment, ← carried]
      rfl

theorem renumber_foldl_addSegment (h : k < b.line) (source : String) (after : State α)
    (segments : List (Segment α)) :
    (segments.foldl (addSegment source after) b).renumber k =
      segments.foldl (addSegment source after) (b.renumber k) := by
  induction segments generalizing b with
  | nil => rfl
  | cons segment rest ih =>
    rw [List.foldl_cons, List.foldl_cons, ← renumber_addSegment h]
    exact ih h

theorem renumber_addWords (h : k < b.line) (source : String) (words : List (Word α)) :
    (b.addWords source words).renumber k = (b.renumber k).addWords source words := by
  let outcome := b.state.apply words
  let cut := Segment.ofRequest outcome.request outcome.state.plane b.setup.machine
  let findings := outcome.findings ++ b.setup.offsets.findings b.state outcome.state ++ cut.2
  let paused : Builder α :=
    { b.note findings with totals := b.totals.addDwell outcome.request.dwell }
  have noted : (b.note findings).renumber k = (b.renumber k).note findings :=
    renumber_note h findings
  have carried : (cut.1.foldl (addSegment source outcome.state) paused).renumber k =
      cut.1.foldl (addSegment source outcome.state) (paused.renumber k) :=
    renumber_foldl_addSegment (b := paused) h source outcome.state cut.1
  calc (b.addWords source words).renumber k
    _ = { (cut.1.foldl (addSegment source outcome.state) paused).renumber k with
          state := outcome.state } := rfl
    _ = { cut.1.foldl (addSegment source outcome.state)
            { (b.note findings).renumber k with
              totals := b.totals.addDwell outcome.request.dwell } with
          state := outcome.state } := by rw [carried]; rfl
    _ = (b.renumber k).addWords source words := by rw [noted]; rfl

/-- **One line more behind the first `k` changes nothing but numbers for a further line.** -/
theorem renumber_takeLine (h : k ≤ b.line) (text : String) :
    (b.takeLine text).renumber k = (b.renumber k).takeLine text := by
  have noted := renumber_note (b := { b with line := b.line + 1 }) (Nat.lt_succ_of_le h)
    ((Line.read text : Line α).rejected.map .unreadable)
  simp only [takeLine]
  split
  · exact noted
  · rw [renumber_addWords (Nat.lt_succ_of_le h), noted]
    rfl

theorem renumber_foldl_takeLine (h : k ≤ b.line) (lines : List String) :
    (lines.foldl takeLine b).renumber k = lines.foldl takeLine (b.renumber k) := by
  induction lines generalizing b with
  | nil => rfl
  | cons text rest ih =>
    rw [List.foldl_cons, List.foldl_cons, ← renumber_takeLine h]
    refine ih ?_
    rw [line_takeLine]
    exact Nat.le_succ_of_le h

theorem renumber_finish (k : Nat) (b : Builder α) :
    b.finish.map (Toolpath.renumber k) = (b.renumber k).finish := by
  have count : (b.renumber k).commands.size = b.commands.size := Array.size_map
  have totals : (b.renumber k).totals = b.totals := rfl
  simp only [finish, totals, count]
  cases b.totals.bounds <;> rfl

theorem takeLine_of_inert {text : String} (inert : Line.read text = (⟨[], []⟩ : Line α)) :
    b.takeLine text = { b with line := b.line + 1 } := by
  simp [takeLine, inert, note]

end Builder

/-! ### Programs -/

namespace Toolpath

variable [Scalar α]

/-- The toolpath of lines, which need not come from one text. -/
def ofLines (setup : Setup α) (lines : List String) : Except (Fault α) (Toolpath α) := do
  let builder ← lines.foldlM Builder.pushLine (← Builder.start setup)
  builder.finish

theorem build_eq_ofLines (setup : Setup α) (text : String) :
    build setup text = ofLines setup (programLines text) := rfl

/-- Without a limit on the number of lines, all of them are taken. -/
theorem ofLines_of_start {setup : Setup α} (unlimited : setup.machine.maxLines = none)
    {b : Builder α} (started : Builder.start setup = .ok b) (lines : List String) :
    ofLines setup lines = (lines.foldl Builder.takeLine b).finish := by
  have taken : lines.foldlM Builder.pushLine b = .ok (lines.foldl Builder.takeLine b) := by
    apply Builder.foldlM_pushLine
    intro n limit
    rw [Builder.setup_of_start started, unlimited] at limit
    cases limit
  unfold ofLines
  rw [started]
  change (lines.foldlM Builder.pushLine b >>= Builder.finish) = _
  rw [taken]
  rfl

/-- **A line that holds nothing only renumbers.**  Where a program has such a line behind
    its first lines, it leads to the same toolpath as without, but that the numbers of all
    later lines are one larger; or both lead to the same fault. -/
theorem ofLines_insert {setup : Setup α} (unlimited : setup.machine.maxLines = none)
    {text : String} (inert : Line.read text = (⟨[], []⟩ : Line α))
    (earlier later : List String) :
    ofLines setup (earlier ++ text :: later) =
      (ofLines setup (earlier ++ later)).map (renumber earlier.length) := by
  rcases started : Builder.start setup with fault | b
  · simp only [ofLines, started]
    rfl
  rw [ofLines_of_start unlimited started, ofLines_of_start unlimited started,
    List.foldl_append, List.foldl_append, List.foldl_cons, Builder.takeLine_of_inert inert]
  have numbered := Builder.numbered_taken started earlier
  have line := Builder.line_taken started earlier
  generalize earlier.foldl Builder.takeLine b = mid at numbered line
  have later : (later.foldl Builder.takeLine mid).renumber earlier.length =
      later.foldl Builder.takeLine (mid.renumber earlier.length) :=
    Builder.renumber_foldl_takeLine (Nat.le_of_eq line.symm) later
  rw [← Builder.renumber_of_numbered numbered, line, ← later, Builder.renumber_finish]

/-- The line stands between two holes of a series. -/
theorem ofLines_insert_between_holes :
    let setup : Setup Float := ⟨.ofRapidFeed 5000.0, .empty⟩
    let text := "G81 X1 R2 Z-3 F50\n(next; hole)\nX5 Q1"
    let text' := "G81 X1 R2 Z-3 F50\nX5 Q1"
    setup.machine.maxLines = none ∧ Line.read "(next; hole)" = (⟨[], []⟩ : Line Float) ∧
      build setup text = (build setup text').map (renumber 1) ∧
      (build setup text).toOption.any (fun path =>
        decide (path.commands.toList.map (·.line) = [1, 1, 1, 3, 3, 3] ∧
          path.diagnostics.toList.map (·.line) = [3])) = true := by
  intro setup text text'
  have inert : Line.read "(next; hole)" = (⟨[], []⟩ : Line Float) := by decide +kernel
  have lines : programLines text = ["G81 X1 R2 Z-3 F50"] ++ "(next; hole)" :: ["X5 Q1"] := by
    decide +kernel
  have lines' : programLines text' = ["G81 X1 R2 Z-3 F50"] ++ ["X5 Q1"] := by
    decide +kernel
  refine ⟨rfl, inert, ?_, by decide +kernel⟩
  rw [build_eq_ofLines, build_eq_ofLines, lines, lines']
  exact ofLines_insert rfl inert _ _

end Toolpath

end NumericalControl
