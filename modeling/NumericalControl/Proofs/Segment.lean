/-
  NumericalControl/Proofs/Segment.lean
  ====================================
  **The arc of a segment.**  A segment has an arc only when its request asks for one and
  the words of the request place a center.  It then leads from the start of the request to
  its target, and its arc runs in the plane of the request about that center.
-/
import NumericalControl.Segment

namespace NumericalControl

variable {α : Type} [Scalar α]

/-- The arc of a segment and the request it comes from. -/
structure Segment.ArcOf (request : Request α) (plane : Plane) (machine : Parameters α)
    (segment : Segment α) (arc : Arc α) (direction : Direction) : Prop where
  motion : request.motion = some (.arc direction)
  start : segment.start = request.start
  target : segment.target = request.target
  center : (request.arc.center plane (plane.coords request.start) (plane.coords request.target)
    direction machine.fullCircleTolerance).1 = some arc.center
  arc : arc = Arc.through plane arc.center request.start request.target direction
    machine.fullCircleTolerance

theorem Segment.arcOf_ofArc {request : Request α} {plane : Plane} {machine : Parameters α}
    {direction : Direction} {arc : Arc α} (motion : request.motion = some (.arc direction))
    (h : (Segment.ofArc request direction plane machine).1.arc = some arc) :
    Segment.ArcOf request plane machine (Segment.ofArc request direction plane machine).1 arc
      direction := by
  unfold Segment.ofArc at h ⊢
  dsimp only at h ⊢
  split at h
  · cases h
  · rename_i center placed
    obtain rfl := Option.some.inj h
    exact ⟨motion, rfl, rfl, placed, rfl⟩

theorem Segment.exists_ofArc {request : Request α} (direction : Direction) {plane : Plane}
    {machine : Parameters α} (offsets : request.arc.hasOffsets plane = true)
    (long : ¬Scalar.hypot ((request.arc.offset plane.axes.1).getD 0.0)
      ((request.arc.offset plane.axes.2).getD 0.0) < machine.fullCircleTolerance) :
    ∃ arc, (Segment.ofArc request direction plane machine).1 =
      ⟨.arc direction, false, request.start, request.target, some arc, none⟩ := by
  obtain ⟨center, placed⟩ : ∃ center, (request.arc.center plane (plane.coords request.start)
      (plane.coords request.target) direction machine.fullCircleTolerance).1 = some center := by
    unfold ArcWords.center
    rw [if_pos offsets]
    dsimp only
    rw [if_neg long]
    exact ⟨_, rfl⟩
  unfold Segment.ofArc
  dsimp only
  rw [placed]
  exact ⟨_, rfl⟩

/-- **An arc among the segments of a request is the one that its words describe.** -/
theorem Segment.arcOf_ofRequest {request : Request α} {plane : Plane} {machine : Parameters α}
    {segment : Segment α} {arc : Arc α}
    (mem : segment ∈ (Segment.ofRequest request plane machine).1) (h : segment.arc = some arc) :
    ∃ direction, Segment.ArcOf request plane machine segment arc direction := by
  unfold Segment.ofRequest at mem
  split at mem
  · cases mem
  · rw [List.mem_singleton.mp mem] at h
    cases h
  · rw [List.mem_singleton.mp mem] at h
    cases h
  · rename_i direction motion
    obtain rfl := List.mem_singleton.mp mem
    exact ⟨direction, Segment.arcOf_ofArc motion h⟩
  · split at mem
    · cases mem
    · simp only [Segment.ofHole, List.mem_cons, List.not_mem_nil, or_false] at mem
      rcases mem with rfl | rfl | rfl <;> cases h

theorem ArcWords.center_of_hasOffsets {words : ArcWords α} {plane : Plane} {start target : α × α}
    {direction : Direction} {tolerance : α} {center : α × α}
    (offsets : words.hasOffsets plane = true)
    (h : (words.center plane start target direction tolerance).1 = some center) :
    center = (start.1 + (words.offset plane.axes.1).getD 0.0,
      start.2 + (words.offset plane.axes.2).getD 0.0) := by
  unfold ArcWords.center at h
  rw [if_pos offsets] at h
  dsimp only at h
  split at h
  · cases h
  · exact (Option.some.inj h).symm

end NumericalControl
