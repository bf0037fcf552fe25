/-
  NumericalControl/Proofs/Translation.lean
  ========================================
  **What a translation leaves alone.**  Over the real numbers everything that is measured
  between positions is measured by their differences.  So distances, radii, angles and spans
  stay the same when all positions are translated alike, and boxes are translated with what
  they were grown by (`moveBounds_translated`, `Arc.rebased_translated`).
-/
import NumericalControl.Proofs.Compensation
import NumericalControl.Toolpath.Builder

namespace NumericalControl

/-! ### Positions -/

namespace Position

theorem get_add (p v : Position ℝ) (axis : Axis) : (p.add v).get axis = p.get axis + v.get axis :=
  get_ofAxes _ axis

variable (p q v : Position ℝ)

theorem squaredGap_translated (axis : Axis) :
    squaredGap (p.add v) (q.add v) axis = squaredGap p q axis := by
  unfold squaredGap
  rw [get_add, get_add, add_sub_add_right_eq_sub]

theorem linearDistance_translated :
    (p.add v).linearDistance (q.add v) = p.linearDistance q := by
  unfold linearDistance
  rw [squaredGap_translated, squaredGap_translated, squaredGap_translated]

theorem rotaryDistance_translated :
    (p.add v).rotaryDistance (q.add v) = p.rotaryDistance q := by
  unfold rotaryDistance
  rw [squaredGap_translated, squaredGap_translated]

end Position

/-! ### Boxes -/

theorem min_translated (a b c : ℝ) : Scalar.min (a + c) (b + c) = Scalar.min a b + c := by
  unfold Scalar.min
  rw [if_neg (Reals.defined _), if_neg (Reals.defined _)]
  simp only [add_le_add_iff_right]
  split <;> rfl

theorem max_translated (a b c : ℝ) : Scalar.max (a + c) (b + c) = Scalar.max a b + c := by
  unfold Scalar.max
  rw [if_neg (Reals.defined _), if_neg (Reals.defined _)]
  simp only [add_le_add_iff_right]
  split <;> rfl

namespace Box

noncomputable def translated (v : Position ℝ) (box : Box ℝ) : Box ℝ :=
  ⟨box.min.add v, box.max.add v⟩

variable (v : Position ℝ) (box : Box ℝ)

theorem ext_get {box other : Box ℝ} (min : ∀ axis, box.min.get axis = other.min.get axis)
    (max : ∀ axis, box.max.get axis = other.max.get axis) : box = other := by
  obtain ⟨lo, hi⟩ := box
  obtain ⟨lo', hi'⟩ := other
  rw [show lo = lo' from Position.ext_get min, show hi = hi' from Position.ext_get max]

theorem growOn_translated (axis : Axis) (value : ℝ) :
    (box.translated v).growOn axis (value + v.get axis) =
      (box.growOn axis value).translated v := by
  refine ext_get (fun other => ?_) fun other => ?_
  · by_cases same : other = axis
    · subst same
      simp only [growOn, translated, Position.get_set_self, Position.get_add, min_translated]
    · simp only [growOn, translated, Position.get_set_of_ne _ same, Position.get_add]
  · by_cases same : other = axis
    · subst same
      simp only [growOn, translated, Position.get_set_self, Position.get_add, max_translated]
    · simp only [growOn, translated, Position.get_set_of_ne _ same, Position.get_add]

theorem grow_translated (p : Position ℝ) :
    (box.translated v).grow (p.add v) = (box.grow p).translated v := by
  refine ext_get (fun axis => ?_) fun axis => ?_
  · simp only [grow, translated, Position.get_ofAxes, Position.get_add, min_translated]
  · simp only [grow, translated, Position.get_ofAxes, Position.get_add, max_translated]

theorem union_translated (other : Box ℝ) :
    (box.translated v).union (other.translated v) = (box.union other).translated v := by
  unfold union
  rw [← grow_translated, ← grow_translated]
  rfl

end Box

/-! ### Arcs -/

namespace Arc

/-- The arc about a center that is moved along in the plane. -/
noncomputable def translated (v : Position ℝ) (arc : Arc ℝ) : Arc ℝ :=
  { arc with center := arc.center + arc.plane.coords v }

variable (v : Position ℝ) (arc : Arc ℝ)

theorem planeDistance_translated (p q w : ℝ × ℝ) :
    planeDistance (p + w) (q + w) = planeDistance p q := by
  unfold planeDistance
  rw [Prod.fst_add, Prod.fst_add, Prod.snd_add, Prod.snd_add, add_sub_add_right_eq_sub,
    add_sub_add_right_eq_sub]

theorem angleAbout_translated (p q w : ℝ × ℝ) :
    angleAbout (p + w) (q + w) = angleAbout p q := by
  unfold angleAbout
  rw [Prod.fst_add, Prod.fst_add, Prod.snd_add, Prod.snd_add, add_sub_add_right_eq_sub,
    add_sub_add_right_eq_sub]

/-- **An arc between translated ends is the translated arc.** -/
theorem rebased_translated (center : ℝ × ℝ) (start target : Position ℝ) :
    arc.rebased (center + arc.plane.coords v) (start.add v) (target.add v) =
      (arc.rebased center start target).translated v := by
  unfold rebased translated
  dsimp only
  rw [Plane.coords_add, Plane.coords_add, angleAbout_translated, planeDistance_translated,
    planeDistance_translated, Position.get_add, Position.get_add, add_sub_add_right_eq_sub]

end Arc

theorem Arc.envelope_translated (v : Position ℝ) (arc : Arc ℝ) :
    (arc.translated v).envelope =
      arc.envelope.map fun (axis, low, high) => (axis, low + v.get axis, high + v.get axis) := by
  simp only [envelope, List.map_cons, List.map_nil, ← add_sub_right_comm,
    add_right_comm _ arc.reach]
  rfl

/-- **The box of a translated move is the translated box.** -/
theorem moveBounds_translated (v start target : Position ℝ) (arc : Option (Arc ℝ)) :
    moveBounds (start.add v) (target.add v) (arc.map (Arc.translated v)) =
      (moveBounds start target arc).translated v := by
  have ends : (Box.ofPoint (start.add v)).grow (target.add v) =
      ((Box.ofPoint start).grow target).translated v :=
    Box.grow_translated v (.ofPoint start) target
  unfold moveBounds
  rw [ends]
  cases arc with
  | none => rfl
  | some arc =>
    dsimp only [Option.map_some]
    rw [Arc.envelope_translated, List.foldl_map]
    refine List.foldl_hom (Box.translated v) fun box (axis, low, high) => ?_
    rw [Box.growOn_translated, Box.growOn_translated]

end NumericalControl
