/-
  NumericalControl/Proofs/Toolpath/Missing.lean
  =============================================
  **No offset is missing silently.**  A memory may bring entries into force that the tables
  lack: a work offset, the length of a tool, the diameter of a cutter (`Offsets.Lacks`).
  Such an entry counts as zero, and a finding says so.  The finding comes when the entry is
  brought into force, which needs both a choice and a mode that uses it, in either order and
  on any lines; from then on no line repeats it.

  So the invariant is about the past: whatever the memory lacks was found on some line up to
  this one (`Builder.Reports`).  A line either brings an entry newly into force, and finds
  it, or it was in force before (`Offsets.lacks_or_found`).  The same then holds of every
  command, because it keeps the memory after its line.
-/
import NumericalControl.Proofs.Toolpath.Run

namespace NumericalControl

variable {α : Type}

/-! ### Entries that are missing -/

/-- An entry that a memory uses and the tables lack, by the finding that tells it. The work
    offset of the start needs no entry, and register 0 stands for no offset. -/
inductive Offsets.Lacks (offsets : Offsets α) (s : State α) : Finding α → Prop
  | work (chosen : s.workOffset ≠ initialWorkOffset)
      (absent : offsets.work.get? s.workOffset = none) :
      Lacks offsets s (.missingWorkOffset s.workOffset)
  | length (active : s.lengthComp = true) (chosen : 0 < s.lengthRegister)
      (absent : offsets.tool.get? .length s.lengthRegister = none) :
      Lacks offsets s (.missingLength s.lengthRegister)
  | diameter (active : s.cutterSide.isSome) (chosen : 0 < s.diameterRegister)
      (absent : offsets.tool.get? .diameter s.diameterRegister = none) :
      Lacks offsets s (.missingDiameter s.diameterRegister)

/-- What a finding says to be missing is absent from the tables. -/
def Offsets.Absent (offsets : Offsets α) : Finding α → Prop
  | .missingWorkOffset name => offsets.work.get? name = none
  | .missingLength register => offsets.tool.get? .length register = none
  | .missingDiameter register => offsets.tool.get? .diameter register = none
  | _ => True

/-- The finding is among the diagnostics of a line up to the given one. -/
def FoundBy (diagnostics : Array (Diagnostic α)) (line : Nat) (finding : Finding α) : Prop :=
  ∃ d ∈ diagnostics, d.finding = finding ∧ d.line ≤ line

namespace Offsets

theorem absent_of_origin (offsets : Offsets α) {finding : Finding α}
    (h : finding.origin ≠ .offsets) : offsets.Absent finding := by
  cases finding <;> trivial

theorem Lacks.kind_eq {offsets : Offsets α} {s : State α} {finding : Finding α}
    (h : offsets.Lacks s finding) : finding.kind = .semantic := by
  cases h <;> rfl

variable [Scalar α]

theorem not_lacks_initial (offsets : Offsets α) (finding : Finding α) :
    ¬offsets.Lacks .initial finding := by
  rintro (⟨chosen, -⟩ | ⟨active, -, -⟩ | ⟨active, -, -⟩)
  · exact chosen rfl
  · cases active
  · cases active

/-- **An entry that is missing after a line was missing before it, or the line finds it.** -/
theorem lacks_or_found {offsets : Offsets α} {before after : State α} {finding : Finding α}
    (h : offsets.Lacks after finding) :
    offsets.Lacks before finding ∨ finding ∈ offsets.findings before after := by
  cases h with
  | work chosen absent =>
    by_cases same : after.workOffset = before.workOffset
    · rw [same] at chosen absent ⊢
      exact .inl (.work chosen absent)
    · right
      simp [findings, same, WorkOffsets.contains, absent]
  | length active chosen absent =>
    by_cases same : before.lengthComp = true ∧ after.lengthRegister = before.lengthRegister
    · rw [same.2] at chosen absent ⊢
      exact .inl (.length same.1 chosen absent)
    · have fresh : before.lengthComp = false ∨ after.lengthRegister ≠ before.lengthRegister := by
        rwa [not_and_or, Bool.not_eq_true] at same
      right
      simp [findings, active, fresh, Nat.ne_of_gt chosen, absent]
  | diameter active chosen absent =>
    by_cases same : after.cutterSide = before.cutterSide ∧
        after.diameterRegister = before.diameterRegister
    · rw [same.1] at active
      rw [same.2] at chosen absent ⊢
      exact .inl (.diameter active chosen absent)
    · have fresh : after.cutterSide ≠ before.cutterSide ∨
          after.diameterRegister ≠ before.diameterRegister := not_and_or.mp same
      right
      simp [findings, active, fresh, chosen, absent]

/-- **A line finds missing only what is absent.** -/
theorem absent_of_mem_findings {offsets : Offsets α} {before after : State α}
    {finding : Finding α} (mem : finding ∈ offsets.findings before after) :
    offsets.Absent finding := by
  simp only [findings, List.mem_append] at mem
  rcases mem with (mem | mem) | mem
  · obtain ⟨⟨-, absent⟩, mem⟩ := List.mem_ite_nil_right.mp mem
    rw [List.mem_singleton.mp mem]
    simpa [Absent, WorkOffsets.contains] using absent
  · split at mem
    · split at mem
      · rw [List.mem_singleton.mp mem]
        trivial
      · obtain ⟨absent, mem⟩ := List.mem_ite_nil_right.mp mem
        rw [List.mem_singleton.mp mem]
        exact Option.isNone_iff_eq_none.mp absent
    · cases mem
  · split at mem
    · rcases List.mem_append.mp mem with mem | mem
      · rw [Option.mem_toList] at mem
        obtain ⟨report, -, rfl⟩ := Option.map_eq_some_iff.mp mem
        trivial
      · obtain ⟨⟨-, absent⟩, mem⟩ := List.mem_ite_nil_right.mp mem
        rw [List.mem_singleton.mp mem]
        exact Option.isNone_iff_eq_none.mp absent
    · cases mem

end Offsets

variable [Scalar α]

namespace Builder

/-! ### What a builder has found -/

omit [Scalar α] in
theorem foundBy_note {b : Builder α} {line : Nat} {finding : Finding α}
    (h : FoundBy b.diagnostics line finding) (findings : List (Finding α)) :
    FoundBy (b.note findings).diagnostics line finding := by
  obtain ⟨d, mem, found⟩ := h
  exact ⟨d, mem_note.mpr (.inl mem), found⟩

/-- What the given memory lacks was found on a line up to this one, what a command lacks was
    found on a line up to its own, and what was found missing is absent. -/
structure Reports (b : Builder α) (memory : State α) : Prop where
  memory : ∀ finding, b.setup.offsets.Lacks memory finding →
    FoundBy b.diagnostics b.line finding
  commands : ∀ c ∈ b.commands, ∀ finding, b.setup.offsets.Lacks c.state finding →
    FoundBy b.diagnostics c.line finding
  absent : ∀ d ∈ b.diagnostics, b.setup.offsets.Absent d.finding

theorem reports_of_start {setup : Setup α} {b : Builder α} (h : start setup = .ok b) :
    b.Reports b.state := by
  obtain ⟨-, rfl⟩ := eq_of_start h
  refine ⟨?_, ?_, ?_⟩
  · intro finding lacks
    exact absurd lacks (Offsets.not_lacks_initial _ finding)
  · intro c mem
    exact absurd mem (Array.not_mem_empty c)
  · intro d mem
    exact absurd mem (Array.not_mem_empty d)

variable {b : Builder α} {before after : State α}

omit [Scalar α] in
theorem Reports.count (h : b.Reports before) :
    { b with line := b.line + 1 }.Reports before := by
  refine ⟨?_, h.commands, h.absent⟩
  intro finding lacks
  obtain ⟨d, mem, found, line⟩ := h.memory finding lacks
  exact ⟨d, mem, found, Nat.le_succ_of_le line⟩

omit [Scalar α] in
/-- Findings that cover what a further memory lacks newly lead on to that memory. -/
theorem Reports.note (h : b.Reports before) {findings : List (Finding α)}
    (absent : ∀ finding ∈ findings, b.setup.offsets.Absent finding)
    (covers : ∀ finding, b.setup.offsets.Lacks after finding →
      b.setup.offsets.Lacks before finding ∨ finding ∈ findings) :
    (b.note findings).Reports after := by
  refine ⟨?_, ?_, ?_⟩
  · intro finding lacks
    rcases covers finding lacks with lacks | mem
    · exact foundBy_note (h.memory finding lacks) findings
    · exact ⟨⟨b.line, finding⟩, mem_note.mpr (.inr ⟨finding, mem, rfl⟩), rfl, Nat.le_refl _⟩
  · intro c mem finding lacks
    exact foundBy_note (h.commands c mem finding lacks) findings
  · intro d mem
    rcases mem_note.mp mem with mem | ⟨finding, found, rfl⟩
    · exact h.absent d mem
    · exact absent finding found

theorem Reports.addSegment (h : b.Reports after) (source : String) (segment : Segment α) :
    (b.addSegment source after segment).Reports after := by
  let findings := commandFindings b.setup.machine (b.commandOf source after segment)
  have noted : (b.note findings).Reports after := by
    refine h.note ?_ fun _ => .inl
    intro finding mem
    refine b.setup.offsets.absent_of_origin ?_
    rw [origin_commandFindings mem]
    decide
  refine ⟨noted.memory, ?_, noted.absent⟩
  intro c mem
  rcases Array.mem_push.mp mem with mem | rfl
  · exact noted.commands c mem
  -- the command of the segment keeps the memory after the line
  · exact noted.memory

theorem Reports.foldl_addSegment (h : b.Reports after) (source : String)
    (segments : List (Segment α)) :
    (segments.foldl (Builder.addSegment source after) b).Reports after := by
  induction segments generalizing b with
  | nil => exact h
  | cons segment rest ih => exact ih (h.addSegment source segment)

theorem Reports.addWords (h : b.Reports b.state) (source : String) (words : List (Word α)) :
    (b.addWords source words).Reports (b.addWords source words).state := by
  let outcome := b.state.apply words
  let cut := Segment.ofRequest outcome.request outcome.state.plane b.setup.machine
  let offsets := b.setup.offsets.findings b.state outcome.state
  have noted : (b.note (outcome.findings ++ offsets ++ cut.2)).Reports outcome.state := by
    refine h.note ?_ ?_
    · intro finding mem
      rcases List.mem_append.mp mem with mem | mem
      · rcases List.mem_append.mp mem with mem | mem
        · refine b.setup.offsets.absent_of_origin ?_
          rw [State.origin_apply mem]
          decide
        · exact Offsets.absent_of_mem_findings mem
      · refine b.setup.offsets.absent_of_origin ?_
        rw [Segment.origin_ofRequest mem]
        decide
    · intro finding lacks
      refine (Offsets.lacks_or_found lacks).imp_right fun mem => ?_
      exact List.mem_append_left _ (List.mem_append_right _ mem)
  let paused : Builder α :=
    { b.note (outcome.findings ++ offsets ++ cut.2) with
      totals := b.totals.addDwell outcome.request.dwell }
  have carried := Reports.foldl_addSegment (b := paused)
    ⟨noted.memory, noted.commands, noted.absent⟩ source cut.1
  exact ⟨carried.memory, carried.commands, carried.absent⟩

/-- **Taking a line keeps the findings in step with the memory.** -/
theorem Reports.takeLine (h : b.Reports b.state) (text : String) :
    (b.takeLine text).Reports (b.takeLine text).state := by
  let line : Line α := Line.read text
  have noted : ({ b with line := b.line + 1 }.note
      (line.rejected.map Finding.unreadable)).Reports b.state := by
    refine h.count.note ?_ fun _ => .inl
    intro finding mem
    obtain ⟨piece, -, rfl⟩ := List.mem_map.mp mem
    trivial
  simp only [Builder.takeLine]
  split
  · exact noted
  · exact Reports.addWords noted _ _

theorem reports_foldl_offer {lines : List String} (h : b.Reports b.state) :
    (lines.foldl offer b).Reports (lines.foldl offer b).state := by
  induction lines generalizing b with
  | nil => exact h
  | cons text rest ih =>
    refine ih ?_
    simp only [offer]
    split
    · exact h
    · exact h.takeLine text

/-- **No offset is missing silently**: what a command lacks was found on a line up to its
    own, whatever lines were offered.  And only what is absent is found to be missing. -/
theorem missing_found {setup : Setup α} {b : Builder α} (started : start setup = .ok b)
    (lines : List String) :
    let last := lines.foldl offer b
    (∀ c ∈ last.commands, ∀ finding, setup.offsets.Lacks c.state finding →
        finding.kind = .semantic ∧ FoundBy last.diagnostics c.line finding) ∧
      ∀ d ∈ last.diagnostics, setup.offsets.Absent d.finding := by
  intro last
  have reports : last.Reports last.state := reports_foldl_offer (reports_of_start started)
  have same : last.setup = setup :=
    (steps_foldl_offer lines b).setup_eq.trans (setup_of_start started)
  rw [← same]
  refine ⟨?_, reports.absent⟩
  intro c mem finding lacks
  exact ⟨lacks.kind_eq, reports.commands c mem finding lacks⟩

/-- The register is chosen on the first line and comes into force on the second. -/
theorem missing_found_later :
    let setup : Setup Float := ⟨.ofRapidFeed 5000.0, .empty⟩
    let lines := ["H5 G1 X1 F100", "G43", "X2"]
    ∃ b, start setup = .ok b ∧ ∃ c ∈ (lines.foldl offer b).commands,
      c.line = 3 ∧ setup.offsets.Lacks c.state (.missingLength 5) ∧
      FoundBy (lines.foldl offer b).diagnostics c.line (.missingLength 5) ∧
      (Finding.missingLength 5 : Finding Float).message =
        "H5 is not in the tool offset table; length compensation is zero" := by
  intro setup lines
  have run : (start setup).toOption.any (fun b => (lines.foldl offer b).commands.any fun c =>
      decide (c.line = 3 ∧ c.state.lengthComp = true ∧ c.state.lengthRegister = 5)) = true := by
    decide +kernel
  rcases started : start setup with fault | b
  · rw [started] at run
    cases run
  · rw [started] at run
    obtain ⟨i, hi, found⟩ := Array.any_eq_true.mp run
    obtain ⟨line, active, register⟩ := of_decide_eq_true found
    have lacks : setup.offsets.Lacks (lines.foldl offer b).commands[i].state
        (.missingLength 5) := by
      have chosen : 0 < (lines.foldl offer b).commands[i].state.lengthRegister := by omega
      simpa only [register] using Offsets.Lacks.length active chosen rfl
    have mem := Array.getElem_mem hi
    refine ⟨b, rfl, _, mem, line, lacks, ?_, by decide +kernel⟩
    exact ((missing_found started lines).1 _ mem _ lacks).2

end Builder

end NumericalControl
