/-
  NumericalControl/Proofs/Binary64/Forward.lean
  =============================================
  **Values that do not go backwards.**  A value is not below zero when it is a zero of
  either sign, a positive number or infinity (`Forward`).  Sums of such values are such
  values and never fall below their first part, whatever is rounded (`le_add`).  So are
  their products and quotients, where these are defined: a product with a positive number
  always is, and a quotient by a positive value is unless both are infinite.
-/
import NumericalControl.Proofs.Binary64.Order
import NumericalControl.Proofs.Binary64.Rounding

namespace NumericalControl.Binary64

open Float.Model Float.Model.UnpackedFloat

/-- A value that is not below zero. -/
inductive Forward : UnpackedFloat → Prop
  | zero (s : Sign) : Forward (.zero s)
  | finite (m : Nat) (e : Int) (positive : 0 < m) : Forward (.finite .positive m e positive)
  | infinity : Forward (.infinity .positive)

theorem zero_le_iff {u : UnpackedFloat} (s : Sign) :
    (UnpackedFloat.zero s).le u = true ↔ Forward u := by
  constructor
  · intro h
    cases u with
    | infinity t =>
      cases t with
      | positive => exact .infinity
      | negative => cases h
    | notANumber => cases h
    | zero t => exact .zero t
    | finite t m e positive =>
      cases t with
      | positive => exact .finite m e positive
      | negative => cases h
  · intro h
    cases h <;> rfl

theorem nonneg_iff {x : Float} : (0.0 : Float) ≤ x ↔ Forward x.toModel.unpack :=
  le_iff_unpack.trans (zero_le_iff .positive)

/-! ### Operations -/

theorem unpack_pack_infinity (s : Sign) :
    (Float.Model.pack (.infinity s)).unpack = .infinity s :=
  unpack_packedInfinity s

theorem forward_pack {u : UnpackedFloat} (h : Forward u) : Forward (Float.Model.pack u).unpack := by
  cases h with
  | zero s =>
    rw [show (Float.Model.pack (.zero s)).unpack = .zero s from unpack_stored_zero s]
    exact .zero s
  | infinity =>
    rw [unpack_pack_infinity]
    exact .infinity
  | finite m e positive =>
    rcases unpack_pack_finite .positive m e positive with h | h | ⟨n, f, positive, h⟩
    · rw [h]
      exact .infinity
    · rw [h]
      exact .zero _
    · rw [h]
      exact .finite n f positive

theorem forward_round (m : Nat) (e : Int) (accuracy : Accuracy) :
    Forward (roundWithAccuracy .binary64 .positive m e accuracy) := by
  rcases roundWithAccuracy_sign .positive m e accuracy with h | ⟨n, f, positive, h⟩
  · rw [h]
    exact .zero _
  · rw [h]
    exact .finite n f positive

/-- The sum of two positive numbers is the rounded sum of their significands, at the
    smaller exponent. -/
theorem add_finite {m₁ m₂ : Nat} {e₁ e₂ : Int} (h₁ : 0 < m₁) (h₂ : 0 < m₂) :
    UnpackedFloat.add .binary64 (.finite .positive m₁ e₁ h₁) (.finite .positive m₂ e₂ h₂) =
      UnpackedFloat.round .binary64 .positive
        (m₁ * 2 ^ (e₁ - min e₁ e₂).toNat + m₂ * 2 ^ (e₂ - min e₁ e₂).toNat) (min e₁ e₂) := by
  have positive : 0 < m₁ * 2 ^ (e₁ - min e₁ e₂).toNat + m₂ * 2 ^ (e₂ - min e₁ e₂).toNat :=
    Nat.add_pos_left (Nat.mul_pos h₁ (Nat.two_pow_pos _)) _
  have sum : UnpackedFloat.add .binary64 (.finite .positive m₁ e₁ h₁) (.finite .positive m₂ e₂ h₂) =
      UnpackedFloat.normalize .binary64 (((m₁ <<< (e₁ - min e₁ e₂).toNat : Nat) : Int)
        + ((m₂ <<< (e₂ - min e₁ e₂).toNat : Nat) : Int)) (min e₁ e₂) .positive := rfl
  rw [sum, Nat.shiftLeft_eq, Nat.shiftLeft_eq, ← Int.natCast_add]
  unfold UnpackedFloat.normalize
  rw [compare_gt_iff_gt.mpr (Int.natCast_pos.mpr positive)]
  rfl

theorem forward_add {u v : UnpackedFloat} (hu : Forward u) (hv : Forward v) :
    Forward (UnpackedFloat.add .binary64 u v) := by
  cases hu with
  | zero s =>
    cases hv with
    | zero t => cases s <;> cases t <;> exact .zero _
    | finite m e positive => exact .finite m e positive
    | infinity => exact .infinity
  | finite m e positive =>
    cases hv with
    | zero t => exact .finite m e positive
    | finite n f positive' =>
      rw [add_finite positive positive']
      exact forward_round _ _ _
    | infinity => exact .infinity
  | infinity => cases hv <;> exact .infinity

/-- A product with a positive number. -/
theorem forward_mul {u : UnpackedFloat} (hu : Forward u) {n : Nat} {f : Int} (positive : 0 < n) :
    Forward (UnpackedFloat.mul .binary64 u (.finite .positive n f positive)) := by
  cases hu with
  | zero s => exact .zero _
  | finite m e positive' => exact forward_round _ _ _
  | infinity => exact .infinity

theorem forward_div {u : UnpackedFloat} (hu : Forward u) {n : Nat} {f : Int} (positive : 0 < n) :
    Forward (UnpackedFloat.div .binary64 u (.finite .positive n f positive)) := by
  cases hu with
  | zero s => exact .zero _
  | finite m e positive' => exact forward_round _ _ _
  | infinity => exact .infinity

/-! ### Sums of floats -/

theorem unpack_add (a b : Float) :
    (a + b).toModel.unpack =
      (Float.Model.pack (UnpackedFloat.add .binary64 a.toModel.unpack b.toModel.unpack)).unpack :=
  rfl

theorem add_nonneg {a b : Float} (ha : (0.0 : Float) ≤ a) (hb : (0.0 : Float) ≤ b) :
    (0.0 : Float) ≤ a + b := by
  rw [nonneg_iff] at ha hb ⊢
  rw [unpack_add]
  exact forward_pack (forward_add ha hb)

/-- A positive number is not above infinity, nor above a number with a larger exponent or
    with the same one and a significand that is not smaller. -/
theorem finite_le {m n : Nat} {e f : Int} {hm : 0 < m} {hn : 0 < n}
    (h : e < f ∨ e = f ∧ m ≤ n) :
    (UnpackedFloat.finite .positive m e hm).le (.finite .positive n f hn) = true := by
  refine unpacked_le_iff.mpr ⟨_, _, rfl, rfl, ?_⟩
  refine Prod.Lex.toLex_le_toLex.mpr (.inr ⟨rfl, Prod.Lex.toLex_le_toLex.mpr ?_⟩)
  rcases h with h | ⟨same, h⟩
  · exact .inl h
  · exact .inr ⟨same, Int.ofNat_le.mpr h⟩

theorem finite_le_pack {m n : Nat} {e f : Int} {hm : 0 < m} (canonical : Canonical n f)
    (h : e < f ∨ e = f ∧ m ≤ n) :
    (UnpackedFloat.finite .positive m e hm).le
      (Float.Model.pack (.finite .positive n f canonical.pos)).unpack = true := by
  rw [unpack_pack_canonical canonical]
  split
  · exact finite_le h
  · rfl

theorem unpacked_le_add {u v : UnpackedFloat} (hu : Forward u) (hv : Forward v)
    (canonical : ∀ m e positive, u = .finite .positive m e positive → Canonical m e) :
    u.le (Float.Model.pack (UnpackedFloat.add .binary64 u v)).unpack = true := by
  cases hu with
  | zero s => exact (zero_le_iff s).mpr (forward_pack (forward_add (.zero s) hv))
  | infinity =>
    have sum : UnpackedFloat.add .binary64 (.infinity .positive) v = .infinity .positive := by
      cases hv <;> rfl
    rw [sum, unpack_pack_infinity]
    rfl
  | finite m e positive =>
    have stored := canonical m e positive rfl
    cases hv with
    | zero t => exact finite_le_pack stored (.inr ⟨rfl, Nat.le_refl m⟩)
    | infinity =>
      rw [show UnpackedFloat.add .binary64 (.finite .positive m e positive) (.infinity .positive) =
        .infinity .positive from rfl, unpack_pack_infinity]
      rfl
    | finite n f positive' =>
      obtain ⟨r, g, canonical', rounded, lower⟩ := le_round .positive stored
        (Int.min_le_left e f) (Nat.le_add_right _ (n * 2 ^ (f - min e f).toNat))
      rw [add_finite positive positive', rounded]
      exact finite_le_pack canonical' lower

/-- **A sum never falls below its first part.** -/
theorem le_add {a b : Float} (ha : (0.0 : Float) ≤ a) (hb : (0.0 : Float) ≤ b) : a ≤ a + b := by
  rw [le_iff_unpack, unpack_add]
  exact unpacked_le_add (nonneg_iff.mp ha) (nonneg_iff.mp hb)
    fun m e positive h => (canonical_unpack h).1

/-! ### Products and quotients of floats -/

theorem isNaN_iff {x : Float} : Scalar.IsNaN x ↔ x.toModel.unpack = .notANumber := by
  rw [← not_iff_not, exists_rank_iff]
  unfold rankOf?
  cases x.toModel.unpack with
  | infinity s => cases s <;> simp [rank?]
  | notANumber => simp [rank?]
  | zero s => simp [rank?]
  | finite s m e positive => cases s <;> simp [rank?]

theorem positive_iff {x : Float} : (0.0 : Float) < x ↔
    x.toModel.unpack = .infinity .positive
      ∨ ∃ m e, ∃ positive : 0 < m, x.toModel.unpack = .finite .positive m e positive := by
  rw [OrderedScalar.lt_iff, nonneg_iff, le_iff_unpack,
    show (0.0 : Float).toModel.unpack = .zero .positive from rfl]
  constructor
  · rintro ⟨forward, above⟩
    generalize x.toModel.unpack = u at forward above
    cases forward with
    | zero s => exact absurd rfl above
    | finite m e positive => exact .inr ⟨m, e, positive, rfl⟩
    | infinity => exact .inl rfl
  · rintro (h | ⟨m, e, positive, h⟩)
    · rw [h]
      exact ⟨.infinity, Bool.false_ne_true⟩
    · rw [h]
      exact ⟨.finite m e positive, Bool.false_ne_true⟩

theorem isFinite_iff {x : Float} :
    Scalar.isFinite x = true ↔ x.toModel.unpack.isFinite = true := Iff.rfl

theorem unpack_mul (a b : Float) :
    (a * b).toModel.unpack =
      (Float.Model.pack (UnpackedFloat.mul .binary64 a.toModel.unpack b.toModel.unpack)).unpack :=
  rfl

theorem unpack_div (a b : Float) :
    (a / b).toModel.unpack =
      (Float.Model.pack (UnpackedFloat.div .binary64 a.toModel.unpack b.toModel.unpack)).unpack :=
  rfl

theorem mul_nonneg {a b : Float} (ha : (0.0 : Float) ≤ a) (hb : (0.0 : Float) < b)
    (finite : Scalar.isFinite b = true) : (0.0 : Float) ≤ a * b := by
  rw [nonneg_iff] at ha ⊢
  rw [isFinite_iff] at finite
  rw [unpack_mul]
  rcases positive_iff.mp hb with h | ⟨m, e, positive, h⟩
  · rw [h] at finite
    cases finite
  · rw [h]
    exact forward_pack (forward_mul ha positive)

/-- A quotient by a positive value is defined unless both are infinite. -/
theorem div_nonneg {a b : Float} (ha : (0.0 : Float) ≤ a) (hb : (0.0 : Float) < b)
    (finite : Scalar.isFinite a = true ∨ Scalar.isFinite b = true) : (0.0 : Float) ≤ a / b := by
  rw [nonneg_iff] at ha ⊢
  rw [isFinite_iff, isFinite_iff] at finite
  rw [unpack_div]
  refine forward_pack ?_
  rcases positive_iff.mp hb with h | ⟨m, e, positive, h⟩
  · rw [h] at finite ⊢
    generalize a.toModel.unpack = u at ha finite ⊢
    cases ha with
    | zero s => exact .zero _
    | finite m e positive => exact .zero _
    | infinity => rcases finite with finite | finite <;> cases finite
  · rw [h]
    exact forward_div ha positive

theorem unpack_pack_notANumber :
    (Float.Model.pack .notANumber).unpack = .notANumber := rfl

theorem isNaN_mul {a b : Float} (h : Scalar.IsNaN a) : Scalar.IsNaN (a * b) := by
  rw [isNaN_iff] at h ⊢
  rw [unpack_mul, h]
  exact unpack_pack_notANumber

theorem isNaN_div {a b : Float} (h : Scalar.IsNaN a) : Scalar.IsNaN (a / b) := by
  rw [isNaN_iff] at h ⊢
  rw [unpack_div, h]
  exact unpack_pack_notANumber

theorem isNaN_div_of_infinite {a b : Float} (ha : (0.0 : Float) < a) (hb : (0.0 : Float) < b)
    (ha' : Scalar.isFinite a = false) (hb' : Scalar.isFinite b = false) :
    Scalar.IsNaN (a / b) := by
  have infinite : ∀ x : Float, (0.0 : Float) < x → Scalar.isFinite x = false →
      x.toModel.unpack = .infinity .positive := by
    intro x hx hx'
    rcases positive_iff.mp hx with h | ⟨m, e, positive, h⟩
    · exact h
    · rw [← Bool.not_eq_true, isFinite_iff, h] at hx'
      exact absurd rfl hx'
  rw [isNaN_iff, unpack_div, infinite a ha ha', infinite b hb hb']
  exact unpack_pack_notANumber

/-! ### Factors above one

A factor of at least one never makes a number so small that it is rounded to zero, whose
sign does not count. -/

theorem mul_negative {m n : Nat} {e f : Int} (hm : 0 < m) (hn : 0 < n) (canonical : Canonical m e)
    (small : f ≤ 0) (large : 2 ^ (-f).toNat ≤ n) :
    ∃ k g, ∃ canonical' : Canonical k g,
      UnpackedFloat.mul .binary64 (.finite .negative m e hm) (.finite .positive n f hn) =
        .finite .negative k g canonical'.pos := by
  have below : e + f ≤ e := by omega
  have reach : m * 2 ^ (e - (e + f)).toNat ≤ m * n := by
    rw [show e - (e + f) = -f by omega]
    exact Nat.mul_le_mul_left m large
  have due := Int.le_trans below (le_targetExponent canonical below reach)
  obtain ⟨k, g, canonical', rounded, -⟩ := le_round .negative canonical below reach
  rw [round_eq .negative due] at rounded
  exact ⟨k, g, canonical', rounded⟩

/-- **A factor of at least one keeps the sign.** -/
theorem nonneg_mul_iff {c : Float} {n : Nat} {f : Int} {positive : 0 < n}
    (hc : c.toModel.unpack = .finite .positive n f positive) (small : f ≤ 0)
    (large : 2 ^ (-f).toNat ≤ n) (x : Float) : (0.0 : Float) ≤ x * c ↔ (0.0 : Float) ≤ x := by
  constructor
  · intro h
    rw [nonneg_iff, unpack_mul, hc] at h
    rw [nonneg_iff]
    cases hx : x.toModel.unpack with
    | notANumber =>
      have product : UnpackedFloat.mul .binary64 .notANumber (.finite .positive n f positive) =
        .notANumber := rfl
      rw [hx, product, unpack_pack_notANumber] at h
      cases h
    | infinity s =>
      cases s with
      | positive => exact .infinity
      | negative =>
        have product : UnpackedFloat.mul .binary64 (.infinity .negative)
          (.finite .positive n f positive) = .infinity .negative := rfl
        rw [hx, product, unpack_pack_infinity] at h
        cases h
    | zero s => exact .zero s
    | finite s m e positive' =>
      cases s with
      | positive => exact .finite m e positive'
      | negative =>
        obtain ⟨k, g, canonical, product⟩ :=
          mul_negative positive' positive (canonical_unpack hx).1 small large
        rw [hx, product, unpack_pack_canonical canonical] at h
        split at h <;> cases h
  · intro h
    have above : (0.0 : Float) < c := positive_iff.mpr (.inr ⟨n, f, positive, hc⟩)
    exact mul_nonneg h above (isFinite_iff.mpr (by rw [hc]; rfl))

end NumericalControl.Binary64
