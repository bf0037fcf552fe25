/-
  NumericalControl/Proofs/Findings.lean
  =====================================
  **Where findings come from.**  Each finding comes from one part of the work on a line
  (`Finding.origin`): from reading its text, from its words, from the offsets that it brings
  into force, from cutting its request into segments, or from carrying a segment to the
  machine.  So a missing offset is found nowhere but among the offsets
  (`Offsets.origin_findings`).

  The kind of a finding is coarser.  Words and offsets give semantic findings only,
  segments give semantic and geometric ones, and findings on the travel limits come from
  nowhere but the carrying of a segment (`Builder.commandFindings`).
-/
import Mathlib.Logic.Basic
import NumericalControl.Toolpath.Builder

namespace NumericalControl

variable {α : Type}

/-- The part of the work on a line from which a finding comes. -/
inductive Origin where
  | text | words | offsets | segments | travel
  deriving DecidableEq, Repr

namespace Finding

def origin : Finding α → Origin
  | unreadable _ => .text
  | conflict _ | unsupportedGCode _ | unsupportedMCode _ | invalidValue _
  | unsupportedLetter _ | dwellWithoutTime | axesPassedThrough | axesWithoutMotion
  | incompleteHole => .words
  | missingWorkOffset _ | lengthRegisterZero | missingLength _ | cutterReported _ _ _
  | missingDiameter _ => .offsets
  | centerAndRadius | depthAboveRPlane | zeroRadius | undeterminedCenter | centerMissing _
  | shortRadius _ | fullCircle | radiusMismatch _ _ => .segments
  | zeroFeed | outsideLimits _ => .travel

theorem kind_of_words {finding : Finding α} (h : finding.origin = .words) :
    finding.kind = .semantic := by
  cases finding <;> first | rfl | cases h

theorem kind_of_offsets {finding : Finding α} (h : finding.origin = .offsets) :
    finding.kind = .semantic := by
  cases finding <;> first | rfl | cases h

theorem kind_of_segments {finding : Finding α} (h : finding.origin = .segments) :
    finding.kind ≠ .limit := by
  cases finding <;> first | exact Kind.noConfusion | cases h

theorem eq_of_mem_ite {p : Prop} [Decidable p] {given finding : Finding α}
    (mem : finding ∈ if p then [given] else []) : finding = given := by
  obtain ⟨-, mem⟩ := List.mem_ite_nil_right.mp mem
  exact List.mem_singleton.mp mem

theorem kind_of_mem_ite {p : Prop} [Decidable p] {given finding : Finding α}
    (mem : finding ∈ if p then [given] else []) : finding.kind = given.kind := by
  rw [eq_of_mem_ite mem]

theorem origin_of_mem_ite {p : Prop} [Decidable p] {given finding : Finding α}
    (mem : finding ∈ if p then [given] else []) : finding.origin = given.origin := by
  rw [eq_of_mem_ite mem]

theorem origin_of_mem_singleton {given finding : Finding α} (mem : finding ∈ [given]) :
    finding.origin = given.origin := by
  rw [List.mem_singleton.mp mem]

end Finding

variable [Scalar α]

/-! ### Findings on words -/

theorem origin_modeFindings {seen : List Group} {words : List (Word α)} {finding : Finding α}
    (mem : finding ∈ modeFindings seen words) : finding.origin = .words := by
  induction words generalizing seen with
  | nil => cases mem
  | cons w rest ih =>
    have first : ∀ {given : Finding α} {seen : List Group}, given.origin = .words →
        finding ∈ given :: modeFindings seen rest → finding.origin = .words := by
      intro given seen words mem
      rcases List.mem_cons.mp mem with rfl | mem
      · exact words
      · exact ih mem
    simp only [modeFindings] at mem
    split at mem
    · split at mem
      · exact first rfl mem
      · exact ih mem
    · exact first rfl mem
    · exact first rfl mem
    · exact first rfl mem
    · exact ih mem

theorem origin_registerFinding? {w : Word α} {finding : Finding α}
    (found : registerFinding? w = some finding) : finding.origin = .words := by
  simp only [registerFinding?] at found
  split at found
  · split at found <;> cases found
    rfl
  · split at found
    · split at found <;> cases found
      rfl
    · split at found <;> cases found
      rfl

theorem State.origin_drillLine {s : State α} {request : Request α} {axes : AxisWords α}
    {callsCycle : Bool} {finding : Finding α}
    (mem : finding ∈ (s.drillLine request axes callsCycle).findings) :
    finding.origin = .words := by
  simp only [State.drillLine] at mem
  split at mem
  · split at mem
    · exact Finding.origin_of_mem_singleton mem
    · cases mem
  · cases mem

theorem State.origin_motionLine {s : State α} {request : Request α} {axes : AxisWords α}
    {words : List (Word α)} {finding : Finding α}
    (mem : finding ∈ (s.motionLine request axes words).findings) :
    finding.origin = .words := by
  simp only [State.motionLine] at mem
  split at mem
  · exact Finding.origin_of_mem_ite mem
  · split at mem
    · exact Finding.origin_of_mem_ite mem
    · exact State.origin_drillLine mem
    · split at mem <;> cases mem

theorem State.origin_apply {old : State α} {words : List (Word α)} {finding : Finding α}
    (mem : finding ∈ (old.apply words).findings) : finding.origin = .words := by
  simp only [State.apply, List.mem_append, List.mem_filterMap] at mem
  rcases mem with ((mem | ⟨w, -, found⟩) | mem) | mem
  · exact origin_modeFindings mem
  · exact origin_registerFinding? found
  · exact Finding.origin_of_mem_ite mem
  · exact State.origin_motionLine mem

/-- **Every finding on the words of a line is semantic.** -/
theorem State.kind_apply {old : State α} {words : List (Word α)} {finding : Finding α}
    (mem : finding ∈ (old.apply words).findings) : finding.kind = .semantic :=
  Finding.kind_of_words (State.origin_apply mem)

/-! ### Findings on offsets -/

theorem Offsets.origin_findings {offsets : Offsets α} {before after : State α}
    {finding : Finding α} (mem : finding ∈ offsets.findings before after) :
    finding.origin = .offsets := by
  simp only [Offsets.findings, List.mem_append] at mem
  rcases mem with (mem | mem) | mem
  · exact Finding.origin_of_mem_ite mem
  · split at mem
    · split at mem
      · exact Finding.origin_of_mem_singleton mem
      · exact Finding.origin_of_mem_ite mem
    · cases mem
  · split at mem
    · rcases List.mem_append.mp mem with mem | mem
      · rw [Option.mem_toList] at mem
        obtain ⟨report, -, rfl⟩ := Option.map_eq_some_iff.mp mem
        rfl
      · exact Finding.origin_of_mem_ite mem
    · cases mem

/-- **Every finding on the offsets of a line is semantic.** -/
theorem Offsets.kind_findings {offsets : Offsets α} {before after : State α}
    {finding : Finding α} (mem : finding ∈ offsets.findings before after) :
    finding.kind = .semantic :=
  Finding.kind_of_offsets (Offsets.origin_findings mem)

/-! ### Findings on segments -/

theorem ArcWords.origin_center {words : ArcWords α} {plane : Plane} {start target : α × α}
    {direction : Direction} {tolerance : α} {finding : Finding α}
    (mem : finding ∈ (words.center plane start target direction tolerance).2) :
    finding.origin = .segments := by
  simp only [ArcWords.center] at mem
  split at mem
  · split at mem
    · rcases List.mem_append.mp mem with mem | mem
      · exact Finding.origin_of_mem_ite mem
      · exact Finding.origin_of_mem_singleton mem
    · exact Finding.origin_of_mem_ite mem
  · split at mem
    · exact Finding.origin_of_mem_singleton mem
    · split at mem
      · cases mem
      · exact Finding.origin_of_mem_singleton mem
      · exact Finding.origin_of_mem_singleton mem

theorem Arc.origin_findings {arc : Arc α} {tolerance : α} {finding : Finding α}
    (mem : finding ∈ arc.findings tolerance) : finding.origin = .segments := by
  simp only [Arc.findings] at mem
  split at mem
  · exact Finding.origin_of_mem_singleton mem
  · exact Finding.origin_of_mem_ite mem

theorem Segment.origin_ofArc {request : Request α} {direction : Direction} {plane : Plane}
    {machine : Parameters α} {finding : Finding α}
    (mem : finding ∈ (Segment.ofArc request direction plane machine).2) :
    finding.origin = .segments := by
  simp only [Segment.ofArc] at mem
  split at mem
  · exact ArcWords.origin_center mem
  · rcases List.mem_append.mp mem with mem | mem
    · exact ArcWords.origin_center mem
    · exact Arc.origin_findings mem

theorem Segment.origin_ofRequest {request : Request α} {plane : Plane}
    {machine : Parameters α} {finding : Finding α}
    (mem : finding ∈ (Segment.ofRequest request plane machine).2) :
    finding.origin = .segments := by
  simp only [Segment.ofRequest] at mem
  split at mem
  · cases mem
  · cases mem
  · cases mem
  · exact Segment.origin_ofArc mem
  · split at mem
    · cases mem
    · exact Finding.origin_of_mem_ite mem

/-- **Cutting a request into segments finds nothing about the travel limits.** -/
theorem Segment.kind_ofRequest {request : Request α} {plane : Plane} {machine : Parameters α}
    {finding : Finding α} (mem : finding ∈ (Segment.ofRequest request plane machine).2) :
    finding.kind ≠ .limit :=
  Finding.kind_of_segments (Segment.origin_ofRequest mem)

/-! ### Findings on commands -/

theorem Builder.origin_commandFindings {machine : Parameters α} {c : Command α}
    {finding : Finding α} (mem : finding ∈ Builder.commandFindings machine c) :
    finding.origin = .travel := by
  rcases List.mem_append.mp mem with mem | mem
  · exact Finding.origin_of_mem_ite mem
  · exact Finding.origin_of_mem_ite mem

end NumericalControl
