/-
  NumericalControl/Proofs/Binary64/Agree.lean
  ===========================================
  **Values that agree.**  Two values agree when they are equal or neither is defined.  Among
  floats that is less than being the same value for the zeros alone, which have a sign
  (`agree_iff`).  Agreeing values stay in agreement whatever is added to both or taken from
  both (`agree_add`, `agree_sub`), because to anything but a zero both zeros add the same.
  And there is nothing between them: their difference is a zero, or not defined
  (`not_lt_sub`, `not_sub_lt`).
-/
import NumericalControl.Compensation
import NumericalControl.Proofs.Binary64.Fraction

namespace NumericalControl.Binary64

open Float.Model Float.Model.UnpackedFloat Scalar

/-- The same, but for the sign of a zero. -/
inductive Alike : UnpackedFloat → UnpackedFloat → Prop
  | refl (u : UnpackedFloat) : Alike u u
  | zeros (s t : Sign) : Alike (.zero s) (.zero t)

theorem alike_of_rank {u v : UnpackedFloat} (h : rank? u = rank? v) : Alike u v := by
  unfold rank? at h
  split at h <;> split at h <;> simp_all [Alike.refl, Alike.zeros]

theorem Alike.rank_eq {u v : UnpackedFloat} (h : Alike u v) : rank? u = rank? v := by
  cases h <;> rfl

theorem Alike.add {u v : UnpackedFloat} (h : Alike u v) (w : UnpackedFloat) :
    Alike (UnpackedFloat.add .binary64 u w) (UnpackedFloat.add .binary64 v w) := by
  cases h with
  | refl => exact .refl _
  | zeros s t =>
    cases w with
    | zero r => cases s <;> cases t <;> cases r <;> exact .zeros _ _
    | infinity r => exact .refl _
    | notANumber => exact .refl _
    | finite r m e positive => exact .refl _

theorem Alike.sub {u v : UnpackedFloat} (h : Alike u v) (w : UnpackedFloat) :
    Alike (UnpackedFloat.sub .binary64 u w) (UnpackedFloat.sub .binary64 v w) := by
  cases h with
  | refl => exact .refl _
  | zeros s t =>
    cases w with
    | zero r => cases s <;> cases t <;> cases r <;> exact .zeros _ _
    | infinity r => exact .refl _
    | notANumber => exact .refl _
    | finite r m e positive => exact .refl _

theorem Alike.pack {u v : UnpackedFloat} (h : Alike u v) :
    Alike (Float.Model.pack u).unpack (Float.Model.pack v).unpack := by
  cases h with
  | refl => exact .refl _
  | zeros s t =>
    have stored : ∀ r : Sign, (Float.Model.pack (.zero r)).unpack = .zero r := unpack_stored_zero
    rw [stored, stored]
    exact .zeros s t

/-- What is alike differs by a zero, or its difference is not defined. -/
theorem Alike.sub_eq {u v : UnpackedFloat} (h : Alike u v) :
    (∃ s, UnpackedFloat.sub .binary64 v u = .zero s) ∨
      UnpackedFloat.sub .binary64 v u = .notANumber := by
  cases h with
  | zeros s t => cases s <;> cases t <;> exact .inl ⟨_, rfl⟩
  | refl =>
    cases u with
    | zero s => cases s <;> exact .inl ⟨_, rfl⟩
    | infinity s => cases s <;> exact .inr rfl
    | notANumber => exact .inr rfl
    | finite s m e positive =>
      simp only [UnpackedFloat.sub, Int.sub_self]
      exact .inl ⟨_, rfl⟩

/-! ### Floats -/

theorem agree_iff {x y : Float} : Agree x y ↔ Alike x.toModel.unpack y.toModel.unpack := by
  constructor
  · rintro (⟨below, above⟩ | ⟨hx, hy⟩)
    · obtain ⟨p, q, hp, hq, le⟩ := le_iff_rank.mp below
      obtain ⟨q', p', hq', hp', ge⟩ := le_iff_rank.mp above
      obtain rfl : p = p' := Option.some.inj (hp.symm.trans hp')
      obtain rfl : q = q' := Option.some.inj (hq.symm.trans hq')
      exact alike_of_rank ((hp.trans (congrArg some (le_antisymm le ge))).trans hq.symm)
    · rw [isNaN_iff.mp hx, isNaN_iff.mp hy]
      exact .refl _
  · intro h
    by_cases hx : IsNaN x
    · refine .inr ⟨hx, isNaN_iff.mpr ?_⟩
      rw [isNaN_iff.mp hx] at h
      generalize y.toModel.unpack = v at h ⊢
      cases h
      rfl
    · obtain ⟨p, hp⟩ := exists_rank_iff.mp hx
      have hq : rankOf? y = some p := h.rank_eq.symm.trans hp
      exact .inl ⟨le_iff_rank.mpr ⟨p, p, hp, hq, le_rfl⟩, le_iff_rank.mpr ⟨p, p, hq, hp, le_rfl⟩⟩

theorem agree_refl (x : Float) : Agree x x := agree_iff.mpr (.refl _)

theorem agree_add {x y : Float} (h : Agree x y) (d : Float) : Agree (x + d) (y + d) := by
  rw [agree_iff] at h ⊢
  rw [unpack_add, unpack_add]
  exact (h.add _).pack

theorem agree_sub {x y : Float} (h : Agree x y) (d : Float) : Agree (x - d) (y - d) := by
  rw [agree_iff] at h ⊢
  rw [unpack_sub, unpack_sub]
  exact (h.sub _).pack

/-- **Between values that agree there is nothing.** -/
theorem sub_of_agree {x y : Float} (h : Agree x y) : Agree (y - x) 0.0 ∨ IsNaN (y - x) := by
  rw [agree_iff, isNaN_iff, unpack_sub]
  rcases (agree_iff.mp h).sub_eq with ⟨s, zero⟩ | undefined
  · rw [zero]
    exact .inl (Alike.zeros s .positive).pack
  · rw [undefined]
    exact .inr rfl

/-- A move between values that agree is level. -/
theorem between?_of_agree {start target : Position Float} {axis : Axis}
    (h : Agree (start.get axis) (target.get axis)) :
    Stroke.between? start target axis = none := by
  have small : (0.0 : Float) ≤ levelTolerance ∧ -levelTolerance ≤ (0.0 : Float) := by
    decide +kernel
  have flat : ¬levelTolerance < target.get axis - start.get axis ∧
      ¬target.get axis - start.get axis < -levelTolerance := by
    rw [OrderedScalar.lt_iff, OrderedScalar.lt_iff]
    rcases sub_of_agree h with (⟨below, above⟩ | ⟨-, undefined⟩) | undefined
    · exact ⟨fun up => up.2 (OrderedScalar.le_trans below small.1),
        fun down => down.2 (OrderedScalar.le_trans small.2 above)⟩
    · exact absurd (by decide +kernel) undefined
    · exact ⟨fun up => OrderedScalar.defined_right up.1 undefined,
        fun down => OrderedScalar.defined_left down.1 undefined⟩
  unfold Stroke.between?
  dsimp only
  rw [if_neg flat.1, if_neg flat.2]

/-! ### Walking a level way -/

theorem isFinite_of_between {t : Float} (defined : ¬IsNaN t) (front : ¬t ≤ 0.0)
    (behind : ¬(1.0 : Float) ≤ t) : Scalar.isFinite t = true := by
  rw [isNaN_iff] at defined
  rw [le_iff_unpack] at front behind
  rw [isFinite_iff]
  generalize t.toModel.unpack = u at defined front behind ⊢
  cases u with
  | notANumber => exact absurd rfl defined
  | infinity s =>
    cases s with
    | positive => exact absurd rfl behind
    | negative => exact absurd rfl front
  | zero s => rfl
  | finite s m e positive => rfl

theorem zero_mul_eq {u : UnpackedFloat} (finite : u.isFinite = true) :
    ∃ s, UnpackedFloat.mul .binary64 (.zero .positive) u = .zero s := by
  cases u with
  | notANumber => cases finite
  | infinity s => cases finite
  | zero s => exact ⟨_, rfl⟩
  | finite s m e positive => exact ⟨_, rfl⟩

theorem agree_zero_mul {t : Float} (finite : Scalar.isFinite t = true) :
    Agree (0.0 * t) 0.0 := by
  obtain ⟨s, zero⟩ := zero_mul_eq (isFinite_iff.mp finite)
  rw [agree_iff, unpack_mul, unpack_zero, zero]
  exact (Alike.zeros s .positive).pack

/-- Adding a zero is as good as taking one away. -/
theorem alike_add_zero (u : UnpackedFloat) (s : Sign) :
    Alike (UnpackedFloat.add .binary64 u (.zero s))
      (UnpackedFloat.sub .binary64 u (.zero .positive)) := by
  cases u with
  | notANumber => exact .refl _
  | infinity r => exact .refl _
  | zero r => cases r <;> cases s <;> exact .zeros _ _
  | finite r m e positive => exact .refl _

theorem agree_add_zero {d : Float} (h : Agree d 0.0) (x : Float) : Agree (x + d) x := by
  obtain ⟨s, zero⟩ : ∃ s, d.toModel.unpack = .zero s := by
    rw [agree_iff, unpack_zero] at h
    generalize d.toModel.unpack = u at h ⊢
    cases h <;> exact ⟨_, rfl⟩
  have same : Alike (x + d).toModel.unpack (x - 0.0).toModel.unpack := by
    rw [unpack_add, unpack_sub, zero]
    exact (alike_add_zero _ s).pack
  rw [sub_zero] at same
  exact agree_iff.mpr same

end NumericalControl.Binary64
