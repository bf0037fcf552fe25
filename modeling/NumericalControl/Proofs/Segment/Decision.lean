/-
  NumericalControl/Proofs/Segment/Decision.lean
  =============================================
  **Which arcs are drawn, and which become straight.**  A line gives the center of its arc
  by offsets along the axes of the plane in force, or by a radius, or not at all; offsets go
  before the radius, and those of other planes do not count.  In three cases the words
  determine no arc (`Request.IsUndetermined`): the offsets are too short, the radius is given
  for ends that coincide, or nothing is given.  Then the arc becomes a straight feed move
  with one remark on its shape, and otherwise it is drawn (`Segment.Decides`).

  Whether the ends coincide is asked twice, once on the way to a center and once for the
  arc about it.  Both questions are about the distance of the ends in the plane, so they
  have the same answer, and an arc that is given by its radius is never a full circle.
-/
import NumericalControl.Proofs.Segment
import NumericalControl.Word.Line

namespace NumericalControl

variable {α : Type} [Scalar α]

/-! ### The words of a center -/

namespace ArcWords

variable (words : ArcWords α)

/-- Whether a word of the line gives an offset of the center in a plane. -/
def GivesOffset : Plane → Prop
  | .xy => words.i.isSome ∨ words.j.isSome
  | .xz => words.k.isSome ∨ words.i.isSome
  | .yz => words.j.isSome ∨ words.k.isSome

instance (plane : Plane) : Decidable (words.GivesOffset plane) := by
  cases plane <;> exact inferInstanceAs (Decidable (_ ∨ _))

/-- The offset of the center along both axes of a plane, zero where no word gives it. -/
def offsetIn : Plane → α × α
  | .xy => (words.i.getD 0.0, words.j.getD 0.0)
  | .xz => (words.k.getD 0.0, words.i.getD 0.0)
  | .yz => (words.j.getD 0.0, words.k.getD 0.0)

omit [Scalar α] in
theorem hasOffsets_iff (plane : Plane) :
    words.hasOffsets plane = true ↔ words.GivesOffset plane := by
  cases plane <;> exact Bool.or_eq_true_iff

theorem offsetIn_eq (plane : Plane) : words.offsetIn plane =
    ((words.offset plane.axes.1).getD 0.0, (words.offset plane.axes.2).getD 0.0) := by
  cases plane <;> rfl

end ArcWords

namespace Request

variable {request : Request α} {plane : Plane} {tolerance : α}

/-- The words of the line determine no arc: the center is the start, or any center would do,
    or none is given. -/
def IsUndetermined (request : Request α) (plane : Plane) (tolerance : α) : Prop :=
  request.arc.GivesOffset plane ∧
      Scalar.hypot (request.arc.offsetIn plane).1 (request.arc.offsetIn plane).2 < tolerance
    ∨ ¬request.arc.GivesOffset plane ∧ request.arc.r.isSome ∧
      planeDistance (plane.coords request.start) (plane.coords request.target) < tolerance
    ∨ ¬request.arc.GivesOffset plane ∧ request.arc.r = none

theorem isUndetermined_of_offset (given : request.arc.GivesOffset plane) (tolerance : α) :
    request.IsUndetermined plane tolerance ↔
      Scalar.hypot (request.arc.offsetIn plane).1 (request.arc.offsetIn plane).2 < tolerance := by
  simp [IsUndetermined, given]

theorem isUndetermined_of_radius (noOffset : ¬request.arc.GivesOffset plane)
    (given : request.arc.r.isSome) (tolerance : α) : request.IsUndetermined plane tolerance ↔
      planeDistance (plane.coords request.start) (plane.coords request.target) < tolerance := by
  simp [IsUndetermined, noOffset, given, Option.isSome_iff_ne_none.mp given]

theorem isUndetermined_of_nothing (noOffset : ¬request.arc.GivesOffset plane)
    (noRadius : request.arc.r = none) : request.IsUndetermined plane tolerance :=
  .inr (.inr ⟨noOffset, noRadius⟩)

end Request

/-! ### Ends that coincide -/

theorem centerFromRadius_eq_undetermined_iff {start target : α × α} {r : α}
    {direction : Direction} {tolerance : α} :
    centerFromRadius start target r direction tolerance = .undetermined ↔
      planeDistance start target < tolerance := by
  unfold centerFromRadius
  dsimp only
  split
  · rename_i near
    exact iff_of_true rfl near
  · rename_i apart
    split
    · exact iff_of_false (fun h => by cases h) apart
    · exact iff_of_false (fun h => by cases h) apart

theorem Arc.fullCircle_through {plane : Plane} {center : α × α} {start target : Position α}
    {direction : Direction} {tolerance : α} :
    (Arc.through plane center start target direction tolerance).fullCircle = true ↔
      planeDistance (plane.coords start) (plane.coords target) < tolerance :=
  decide_eq_true_iff

/-! ### The center and what there is to remark -/

/-- The remarks on a center that the words do not give, or that does not fit them. -/
def Finding.isOnCenter : Finding α → Bool
  | .zeroRadius | .undeterminedCenter | .centerMissing _ | .shortRadius _ => true
  | _ => false

namespace ArcWords

variable {words : ArcWords α} {plane : Plane} {start target : α × α} {direction : Direction}
  {tolerance : α}

theorem center_of_offset (given : words.GivesOffset plane) (start target : α × α)
    (direction : Direction) (tolerance : α) :
    words.center plane start target direction tolerance =
      if Scalar.hypot (words.offsetIn plane).1 (words.offsetIn plane).2 < tolerance then
        (none, (if words.r.isSome then [.centerAndRadius] else []) ++ [.zeroRadius])
      else (some (start.1 + (words.offsetIn plane).1, start.2 + (words.offsetIn plane).2),
        if words.r.isSome then [.centerAndRadius] else []) := by
  rw [offsetIn_eq, center, if_pos ((words.hasOffsets_iff plane).mpr given)]

theorem center_of_coincident (noOffset : ¬words.GivesOffset plane) (given : words.r.isSome)
    (near : planeDistance start target < tolerance) :
    words.center plane start target direction tolerance = (none, [.undeterminedCenter]) := by
  obtain ⟨r, given⟩ := Option.isSome_iff_exists.mp given
  rw [center, if_neg (fun h => noOffset ((words.hasOffsets_iff plane).mp h)), given]
  dsimp only
  rw [centerFromRadius_eq_undetermined_iff.mpr near]

theorem center_of_radius (noOffset : ¬words.GivesOffset plane) (given : words.r.isSome)
    (apart : ¬planeDistance start target < tolerance) (direction : Direction) :
    ∃ r point remarks, words.r = some r ∧
      words.center plane start target direction tolerance = (some point, remarks) ∧
      centerFromRadius start target r direction tolerance ∈ [.center point, .clamped point] ∧
      ∀ finding ∈ remarks, finding.isOnCenter = true := by
  obtain ⟨r, given⟩ := Option.isSome_iff_exists.mp given
  rw [center, if_neg (fun h => noOffset ((words.hasOffsets_iff plane).mp h)), given]
  dsimp only
  rcases placed : centerFromRadius start target r direction tolerance with point | point | _
  · exact ⟨r, point, [], rfl, rfl, by simp [placed], List.forall_mem_nil _⟩
  · exact ⟨r, point, _, rfl, rfl, by simp [placed], List.forall_mem_singleton.mpr rfl⟩
  · exact absurd (centerFromRadius_eq_undetermined_iff.mp placed) apart

theorem center_of_nothing (noOffset : ¬words.GivesOffset plane) (noRadius : words.r = none) :
    words.center plane start target direction tolerance = (none, [.centerMissing plane]) := by
  rw [center, if_neg (fun h => noOffset ((words.hasOffsets_iff plane).mp h)), noRadius]

end ArcWords

/-! ### The segment of an arc -/

/-- A straight feed move in place of an arc, with one remark on its shape. -/
structure Segment.IsStraightened (segment : Segment α) (findings : List (Finding α)) : Prop where
  motion : segment.motion = .linear
  arc : segment.arc = none
  remark : findings.countP (·.kind == .geometric) = 1

/-- What an arc that is drawn takes from its request. -/
structure Arc.Answers (arc : Arc α) (request : Request α) (direction : Direction)
    (plane : Plane) (tolerance : α) : Prop where
  plane_eq : arc.plane = plane
  direction_eq : arc.direction = direction
  /-- Both radii are measured, from the center to the ends. -/
  radius_eq : arc.radius = planeDistance arc.center (plane.coords request.start)
  endRadius_eq : arc.endRadius = planeDistance arc.center (plane.coords request.target)
  /-- With an offset the center is the start and the offset, whatever the radius is. -/
  offset : request.arc.GivesOffset plane →
    arc.center = ((plane.coords request.start).1 + (request.arc.offsetIn plane).1,
      (plane.coords request.start).2 + (request.arc.offsetIn plane).2)
  solved : ¬request.arc.GivesOffset plane → ∃ r, request.arc.r = some r ∧
    centerFromRadius (plane.coords request.start) (plane.coords request.target) r direction
      tolerance ∈ [.center arc.center, .clamped arc.center]
  fullCircle_iff : arc.fullCircle = true ↔
    planeDistance (plane.coords request.start) (plane.coords request.target) < tolerance
  /-- An arc that is given by its radius is never a full circle. -/
  givesOffset : arc.fullCircle = true → request.arc.GivesOffset plane

/-- What becomes of the request of an arc in a plane: a segment, and what there is to remark. -/
structure Segment.Decides (request : Request α) (direction : Direction) (plane : Plane)
    (p : Parameters α) (segment : Segment α) (findings : List (Finding α)) : Prop where
  start : segment.start = request.start
  target : segment.target = request.target
  feed : segment.isRapid = false
  straightened_iff : segment.IsStraightened findings ↔
    request.IsUndetermined plane p.fullCircleTolerance
  drawn : ¬request.IsUndetermined plane p.fullCircleTolerance →
    segment.motion = .arc direction ∧ ∃ arc, segment.arc = some arc ∧
      arc.Answers request direction plane p.fullCircleTolerance
  /-- The only remark that is not on the shape tells of offsets beside a radius. -/
  semantic_iff : (∃ finding ∈ findings, finding.kind = .semantic) ↔
    request.arc.GivesOffset plane ∧ request.arc.r.isSome
  /-- Both distances from the center are remarked when they differ, except for a circle. -/
  mismatch_iff : ∀ a b, .radiusMismatch a b ∈ findings ↔ ∃ arc, segment.arc = some arc ∧
    arc.fullCircle = false ∧ p.arcRadiusTolerance < Scalar.abs (a - b) ∧
    a = planeDistance arc.center (plane.coords request.start) ∧
    b = planeDistance arc.center (plane.coords request.target)

/-! ### Remarks -/

theorem Arc.not_semantic_findings (arc : Arc α) (tolerance : α) :
    ¬∃ finding ∈ arc.findings tolerance, finding.kind = .semantic := by
  rintro ⟨finding, mem, kind⟩
  unfold Arc.findings at mem
  split at mem
  · rw [List.mem_singleton.mp mem] at kind
    cases kind
  · split at mem
    · rw [List.mem_singleton.mp mem] at kind
      cases kind
    · cases mem

theorem Arc.radiusMismatch_mem_findings {arc : Arc α} {tolerance a b : α} :
    .radiusMismatch a b ∈ arc.findings tolerance ↔ arc.fullCircle = false ∧
      tolerance < Scalar.abs (a - b) ∧ a = arc.radius ∧ b = arc.endRadius := by
  unfold Arc.findings
  split
  · rename_i full
    simp [full]
  · rename_i part
    split
    · rename_i apart
      have told : .radiusMismatch a b ∈ [Finding.radiusMismatch arc.radius arc.endRadius] ↔
          a = arc.radius ∧ b = arc.endRadius := by simp
      rw [told]
      constructor
      · rintro ⟨rfl, rfl⟩
        exact ⟨Bool.eq_false_iff.mpr part, apart, rfl, rfl⟩
      · rintro ⟨-, -, same⟩
        exact same
    · rename_i near
      refine iff_of_false List.not_mem_nil ?_
      rintro ⟨-, apart, rfl, rfl⟩
      exact near apart

/-- What the remarks on a center tell. -/
structure ArcWords.Remarks (words : ArcWords α) (plane : Plane) (remarks : List (Finding α)) :
    Prop where
  semantic_iff : (∃ finding ∈ remarks, finding.kind = .semantic) ↔
    words.GivesOffset plane ∧ words.r.isSome
  no_mismatch : ∀ a b, .radiusMismatch a b ∉ remarks

section

omit [Scalar α]

variable {words : ArcWords α} {plane : Plane} {remarks : List (Finding α)}

theorem Finding.of_isOnCenter {finding : Finding α} (h : finding.isOnCenter = true) :
    finding.kind = .geometric ∧ ∀ a b, finding ≠ .radiusMismatch a b := by
  refine ⟨?_, ?_⟩
  · cases finding <;> first | rfl | cases h
  · rintro a b rfl
    cases h

theorem ArcWords.remarks_of_no_offset (noOffset : ¬words.GivesOffset plane)
    (shape : ∀ finding ∈ remarks, finding.isOnCenter = true) : words.Remarks plane remarks := by
  constructor
  case semantic_iff =>
    refine iff_of_false (fun ⟨finding, mem, kind⟩ => ?_) fun both => noOffset both.1
    cases kind.symm.trans (Finding.of_isOnCenter (shape finding mem)).1
  case no_mismatch => exact fun a b mem => (Finding.of_isOnCenter (shape _ mem)).2 a b rfl

theorem ArcWords.remarks_of_offset (given : words.GivesOffset plane)
    (shape : ∀ finding ∈ remarks, finding.isOnCenter = true) :
    words.Remarks plane ((if words.r.isSome then [.centerAndRadius] else []) ++ remarks) := by
  constructor
  case semantic_iff =>
    have other : ¬∃ finding ∈ remarks, finding.kind = .semantic := by
      rintro ⟨finding, mem, kind⟩
      cases kind.symm.trans (Finding.of_isOnCenter (shape finding mem)).1
    simp only [List.mem_append, or_and_right, exists_or, other, or_false, given, true_and]
    split
    · rename_i both
      exact iff_of_true ⟨_, List.mem_singleton_self _, rfl⟩ both
    · rename_i alone
      exact iff_of_false (fun ⟨_, mem, _⟩ => List.not_mem_nil mem) alone
  case no_mismatch =>
    intro a b mem
    rcases List.mem_append.mp mem with mem | mem
    · split at mem
      · cases List.mem_singleton.mp mem
      · cases mem
    · exact (Finding.of_isOnCenter (shape _ mem)).2 a b rfl

end

/-! ### Whole requests -/

namespace Segment

section

variable {request : Request α} {direction : Direction} {plane : Plane} {p : Parameters α}
  {remarks : List (Finding α)}

theorem decides_straight
    (undetermined : request.IsUndetermined plane p.fullCircleTolerance)
    (unplaced : request.arc.center plane (plane.coords request.start)
      (plane.coords request.target) direction p.fullCircleTolerance = (none, remarks))
    (remark : remarks.countP (·.kind == .geometric) = 1)
    (tells : request.arc.Remarks plane remarks) :
    Decides request direction plane p (ofArc request direction plane p).1
      (ofArc request direction plane p).2 := by
  have straightened : ofArc request direction plane p =
      (straight .linear false request.start request.target, remarks) := by
    simp only [ofArc, unplaced]
  rw [straightened]
  constructor
  case start => rfl
  case target => rfl
  case feed => rfl
  case straightened_iff => exact iff_of_true ⟨rfl, rfl, remark⟩ undetermined
  case drawn => exact fun determined => absurd undetermined determined
  case semantic_iff => exact tells.semantic_iff
  case mismatch_iff =>
    intro a b
    refine iff_of_false (tells.no_mismatch a b) ?_
    rintro ⟨arc, drawn, -⟩
    cases drawn

theorem decides_drawn {center : α × α}
    (determined : ¬request.IsUndetermined plane p.fullCircleTolerance)
    (placed : request.arc.center plane (plane.coords request.start) (plane.coords request.target)
      direction p.fullCircleTolerance = (some center, remarks))
    (tells : request.arc.Remarks plane remarks)
    (answers : (Arc.through plane center request.start request.target direction
      p.fullCircleTolerance).Answers request direction plane p.fullCircleTolerance) :
    Decides request direction plane p (ofArc request direction plane p).1
      (ofArc request direction plane p).2 := by
  generalize through : Arc.through plane center request.start request.target direction
    p.fullCircleTolerance = arc at answers
  have drawn : ofArc request direction plane p =
      (⟨.arc direction, false, request.start, request.target, some arc, .none⟩,
        remarks ++ arc.findings p.arcRadiusTolerance) := by
    simp only [ofArc, placed, through]
  rw [drawn]
  constructor
  case start => rfl
  case target => rfl
  case feed => rfl
  case straightened_iff =>
    refine iff_of_false (fun straightened => ?_) determined
    cases straightened.motion
  case drawn => exact fun _ => ⟨rfl, arc, rfl, answers⟩
  case semantic_iff =>
    have shape := arc.not_semantic_findings p.arcRadiusTolerance
    simp only [List.mem_append, or_and_right, exists_or, shape, or_false]
    exact tells.semantic_iff
  case mismatch_iff =>
    intro a b
    simp only [List.mem_append, tells.no_mismatch a b, false_or, Arc.radiusMismatch_mem_findings,
      Option.some.injEq, exists_eq_left', answers.radius_eq, answers.endRadius_eq]

theorem decides_of_offset (given : request.arc.GivesOffset plane) :
    Decides request direction plane p (ofArc request direction plane p).1
      (ofArc request direction plane p).2 := by
  have placed := ArcWords.center_of_offset given (plane.coords request.start)
    (plane.coords request.target) direction p.fullCircleTolerance
  have table := Request.isUndetermined_of_offset given p.fullCircleTolerance
  split at placed
  · rename_i short
    refine decides_straight (table.mpr short) placed ?_
      (ArcWords.remarks_of_offset given (List.forall_mem_singleton.mpr rfl))
    cases request.arc.r <;> rfl
  · rename_i long
    have remarks := ArcWords.remarks_of_offset given (List.forall_mem_nil _)
    rw [List.append_nil] at remarks
    exact decides_drawn (fun undetermined => long (table.mp undetermined)) placed remarks
      ⟨rfl, rfl, rfl, rfl, fun _ => rfl, fun noOffset => absurd given noOffset,
        Arc.fullCircle_through, fun _ => given⟩

theorem decides_of_radius (noOffset : ¬request.arc.GivesOffset plane)
    (given : request.arc.r.isSome) :
    Decides request direction plane p (ofArc request direction plane p).1
      (ofArc request direction plane p).2 := by
  have table := Request.isUndetermined_of_radius noOffset given p.fullCircleTolerance
  by_cases near : planeDistance (plane.coords request.start) (plane.coords request.target)
      < p.fullCircleTolerance
  · exact decides_straight (table.mpr near) (ArcWords.center_of_coincident noOffset given near) rfl
      (ArcWords.remarks_of_no_offset noOffset (List.forall_mem_singleton.mpr rfl))
  · obtain ⟨r, point, remarks, known, placed, solved, shape⟩ :=
      ArcWords.center_of_radius noOffset given near direction
    -- both questions about the ends have the same answer, so the arc is no full circle
    exact decides_drawn (fun undetermined => near (table.mp undetermined)) placed
      (ArcWords.remarks_of_no_offset noOffset shape)
      ⟨rfl, rfl, rfl, rfl, fun offset => absurd offset noOffset, fun _ => ⟨r, known, solved⟩,
        Arc.fullCircle_through, fun full => absurd (Arc.fullCircle_through.mp full) near⟩

theorem decides_of_nothing (noOffset : ¬request.arc.GivesOffset plane)
    (noRadius : request.arc.r = none) :
    Decides request direction plane p (ofArc request direction plane p).1
      (ofArc request direction plane p).2 :=
  decides_straight (Request.isUndetermined_of_nothing noOffset noRadius)
    (ArcWords.center_of_nothing noOffset noRadius) rfl
    (ArcWords.remarks_of_no_offset noOffset (List.forall_mem_singleton.mpr rfl))

end

/-- **One table decides what becomes of an arc**: which arcs become straight moves and which
    are drawn, about which center, and what there is to remark. -/
theorem decides_ofRequest {request : Request α} {direction : Direction}
    (asked : request.motion = some (.arc direction)) (plane : Plane) (p : Parameters α) :
    ∃ segment findings, ofRequest request plane p = ([segment], findings) ∧
      Decides request direction plane p segment findings := by
  refine ⟨(ofArc request direction plane p).1, (ofArc request direction plane p).2, ?_, ?_⟩
  · simp only [ofRequest, asked]
  · by_cases given : request.arc.GivesOffset plane
    · exact decides_of_offset given
    · rcases known : request.arc.r with _ | r
      · exact decides_of_nothing given known
      · exact decides_of_radius given (by rw [known]; rfl)

/-- A helix in the plane of X and Z. The word J belongs to other planes, so the radius counts,
    which is too short for the ends. -/
theorem decides_ofRequest_helix :
    let request : Request Float :=
      (State.initial.apply (Line.read "G18 G2 X10 Y3 J5 R4").words).request
    let p : Parameters Float := .ofRapidFeed 5000.0
    request.motion = some (.arc .clockwise) ∧
      ¬request.IsUndetermined .xz p.fullCircleTolerance ∧
      ∃ segment findings, ofRequest request .xz p = ([segment], findings) ∧
        Decides request .clockwise .xz p segment findings := by
  intro request p
  have asked : request.motion = some (.arc .clockwise) := by decide +kernel
  refine ⟨asked, ?_, decides_ofRequest asked .xz p⟩
  have noOffset : ¬request.arc.GivesOffset .xz := by decide +kernel
  rw [Request.isUndetermined_of_radius noOffset (by decide +kernel)]
  decide +kernel

end Segment

end NumericalControl
