/-
  NumericalControl/Proofs/Binary64/Count.lean
  ===========================================
  **Counts among the values.**  Binary64 values are compared by their exponents first.  A
  full significand leaves no room below it, so that is the order of the numbers they stand
  for (`Canonical.le_iff`).

  A count below `2 ^ 53` is a value without a fraction.  So a value is at most a count
  exactly when the least whole number that is not below it is (`ceil_le_iff`).
-/
import NumericalControl.Proofs.Binary64.Whole

namespace NumericalControl.Binary64

open Float.Model Float.Model.UnpackedFloat

variable {m n : Nat} {e f g : Int}

/-! ### Values as numbers -/

theorem Canonical.lt_of_exponent_lt (h : Canonical m e) (h' : Canonical n f) (lt : e < f)
    (le : g ≤ e) : m * 2 ^ (e - g).toNat < n * 2 ^ (f - g).toNat := by
  have least := h.least
  have full : 2 ^ 52 ≤ n := h'.full.resolve_right (by omega)
  have more : (e - g).toNat + 1 ≤ (f - g).toNat := by omega
  calc m * 2 ^ (e - g).toNat
    _ < 2 ^ 53 * 2 ^ (e - g).toNat := Nat.mul_lt_mul_of_pos_right h.lt (Nat.two_pow_pos _)
    _ = 2 ^ 52 * 2 ^ ((e - g).toNat + 1) := by rw [← Nat.pow_add, ← Nat.pow_add]; congr 1; omega
    _ ≤ n * 2 ^ (f - g).toNat := Nat.mul_le_mul full (Nat.pow_le_pow_right Nat.two_pos more)

/-- **Exponents first is the order of the numbers**, measured in any unit below both. -/
theorem Canonical.le_iff (h : Canonical m e) (h' : Canonical n f) (le : g ≤ e) (le' : g ≤ f) :
    e < f ∨ e = f ∧ m ≤ n ↔ m * 2 ^ (e - g).toNat ≤ n * 2 ^ (f - g).toNat := by
  rcases Int.lt_trichotomy e f with lt | rfl | lt
  · have numbers := h.lt_of_exponent_lt h' lt le
    exact ⟨fun _ => Nat.le_of_lt numbers, fun _ => .inl lt⟩
  · simp
  · have numbers := h'.lt_of_exponent_lt h lt le'
    constructor
    · intro first
      omega
    · intro numbers'
      omega

theorem finite_le_iff {hm : 0 < m} {hn : 0 < n} :
    (UnpackedFloat.finite .positive m e hm).le (.finite .positive n f hn) = true ↔
      e < f ∨ e = f ∧ m ≤ n := by
  refine ⟨fun h => ?_, finite_le⟩
  obtain ⟨p, q, hp, hq, le⟩ := unpacked_le_iff.mp h
  cases hp
  cases hq
  simpa [Prod.Lex.toLex_le_toLex] using le

/-! ### Whole numbers -/

theorem divided_up_le_iff (m k : Nat) {d : Nat} (positive : 0 < d) :
    (if (m % d == 0) = true then m / d else m / d + 1) ≤ k ↔ m ≤ k * d := by
  simp only [beq_iff_eq]
  split
  · rename_i whole
    exact Nat.div_le_iff_le_mul_of_dvd positive.ne' (Nat.dvd_of_mod_eq_zero whole)
  · rename_i part
    have other : m ≠ k * d := by
      rintro rfl
      exact part (Nat.mul_mod_left k d)
    rw [Nat.add_one_le_iff, Nat.div_lt_iff_lt_mul positive]
    omega

/-- The least whole number that is not below a value, in a unit below the value and one. -/
theorem ceil_le_iff_scaled {x : Float} {positive : 0 < m}
    (h : x.toModel.unpack = .finite .positive m e positive) (k : Nat) (le : g ≤ e)
    (small : g ≤ 0) :
    Scalar.ceil x ≤ k ↔ m * 2 ^ (e - g).toNat ≤ k * 2 ^ (-g).toNat := by
  change ceil x ≤ k ↔ _
  simp only [ceil, h, isWhole, wholePart, Bool.or_eq_true, decide_eq_true_eq]
  by_cases large : 0 ≤ e
  · have split : (e - g).toNat = e.toNat + (-g).toNat := by omega
    rw [if_pos (.inl large), if_pos large, split, Nat.shiftLeft_eq, Nat.pow_add, ← Nat.mul_assoc]
    exact (Nat.mul_le_mul_right_iff (Nat.two_pow_pos _)).symm
  · have split : (-g).toNat = (-e).toNat + (e - g).toNat := by omega
    rw [split, Nat.pow_add, ← Nat.mul_assoc, Nat.mul_le_mul_right_iff (Nat.two_pow_pos _)]
    simp only [large, false_or, if_false, Nat.shiftRight_eq_div_pow]
    exact divided_up_le_iff m k (Nat.two_pow_pos _)

theorem ofNat_zero : (Scalar.ofNat 0 : Float) = 0.0 := by
  decide +kernel

/-- **A value is at most a count when the least whole number above it is.** -/
theorem ceil_le_iff {x : Float} {positive : 0 < m}
    (h : x.toModel.unpack = .finite .positive m e positive) {k : Nat} (lt : k < 2 ^ 53) :
    Scalar.ceil x ≤ k ↔ x ≤ Scalar.ofNat k := by
  rcases Nat.eq_zero_or_pos k with rfl | counted
  · have above : (0.0 : Float) < x := positive_iff.mpr (.inr ⟨m, e, positive, h⟩)
    rw [ceil_le_iff_scaled h 0 (Int.min_le_left e 0) (Int.min_le_right e 0), ofNat_zero]
    have number : 0 < m * 2 ^ (e - min e 0).toNat := Nat.mul_pos positive (Nat.two_pow_pos _)
    constructor
    · intro small
      omega
    · intro small
      exact absurd small (OrderedScalar.lt_iff.mp above).2
  · have count := unpack_ofNat counted lt
    -- a unit below the last digit of the value and of every count
    have below : min e (-52) ≤ e := Int.min_le_left _ _
    have below' : min e (-52) ≤ -(52 - k.log2 : Nat) := by omega
    have unit : (-min e (-52)).toNat =
        (52 - k.log2) + (-(52 - k.log2 : Nat) - min e (-52)).toNat := by omega
    rw [ceil_le_iff_scaled h k below (by omega), unit, Nat.pow_add, ← Nat.mul_assoc,
      le_iff_unpack, h, count, finite_le_iff,
      (canonical_unpack h).1.le_iff (canonical_unpack count).1 below below']

theorem ceil_ofNat {n : Nat} (lt : n < 2 ^ 53) : Scalar.ceil (Scalar.ofNat n : Float) = n := by
  rcases Nat.eq_zero_or_pos n with rfl | some
  · decide +kernel
  · refine eq_of_forall_ge_iff fun k => ?_
    rw [ceil_le_iff_scaled (unpack_ofNat some lt) k (Int.le_refl _) (by omega), Int.sub_self,
      Int.neg_neg, Int.toNat_natCast, Int.toNat_zero, Nat.pow_zero, Nat.mul_one,
      Nat.mul_le_mul_right_iff (Nat.two_pow_pos _)]

/-- **Counts are ordered as numbers.** -/
theorem ofNat_le_ofNat {i j : Nat} (lt : i < 2 ^ 53) (lt' : j < 2 ^ 53) :
    (Scalar.ofNat i : Float) ≤ Scalar.ofNat j ↔ i ≤ j := by
  rcases Nat.eq_zero_or_pos i with rfl | some
  · rw [ofNat_zero]
    exact ⟨fun _ => Nat.zero_le j, fun _ => zero_le_ofNat j⟩
  · rw [← ceil_le_iff (unpack_ofNat some lt) lt', ceil_ofNat lt]

/-- What is not above a count is no infinity. -/
theorem exists_finite {x : Float} {n : Nat} (positive : (0.0 : Float) < x)
    (le : x ≤ Scalar.ofNat n) (lt : n < 2 ^ 53) :
    ∃ m e, ∃ positive : 0 < m, x.toModel.unpack = .finite .positive m e positive := by
  refine (positive_iff.mp positive).resolve_left fun infinite => ?_
  rw [le_iff_unpack, infinite] at le
  rcases Nat.eq_zero_or_pos n with rfl | some
  · exact absurd le (by decide +kernel)
  · rw [unpack_ofNat some lt] at le
    exact absurd le Bool.false_ne_true

/-- **What lies above one count and not above another is rounded up to a number between
    them.** -/
theorem ceil_between {x : Float} {i j : Nat} (above : (Scalar.ofNat i : Float) < x)
    (le : x ≤ Scalar.ofNat j) (lt : i < 2 ^ 53) (lt' : j < 2 ^ 53) :
    i < Scalar.ceil x ∧ Scalar.ceil x ≤ j := by
  obtain ⟨below, other⟩ := OrderedScalar.lt_iff.mp above
  have positive : (0.0 : Float) < x := by
    refine OrderedScalar.lt_iff.mpr ⟨OrderedScalar.le_trans (zero_le_ofNat i) below, ?_⟩
    intro small
    exact other (OrderedScalar.le_trans small (zero_le_ofNat i))
  obtain ⟨m, e, hm, finite⟩ := exists_finite positive le lt'
  rw [← Nat.not_le, ceil_le_iff finite lt, ceil_le_iff finite lt']
  exact ⟨other, le⟩

theorem eq_ofNat_of_same {x : Float} {n : Nat} (counted : 0 < n) (lt : n < 2 ^ 53)
    (same : Scalar.Same x (Scalar.ofNat n)) : x = Scalar.ofNat n := by
  have count := unpack_ofNat counted lt
  have positive : (0.0 : Float) < x := by
    refine OrderedScalar.lt_iff.mpr ⟨OrderedScalar.le_trans (zero_le_ofNat n) same.2, ?_⟩
    intro small
    rw [← ofNat_zero] at small
    have := (ofNat_le_ofNat lt (by omega)).mp (OrderedScalar.le_trans same.2 small)
    omega
  obtain ⟨m, e, hm, finite⟩ := exists_finite positive same.1 lt
  have below := le_iff_unpack.mp same.1
  have above := le_iff_unpack.mp same.2
  rw [finite, count, finite_le_iff] at below
  rw [finite, count, finite_le_iff] at above
  obtain ⟨rfl, rfl⟩ : e = -(52 - n.log2 : Nat) ∧ m = n * 2 ^ (52 - n.log2) := by omega
  exact unpack_inj (finite.trans count.symm)

/-- **What equals a count has the count as its whole part**, and zero may have any sign. -/
theorem floor_ceil_of_same {x : Float} {n : Nat} (lt : n < 2 ^ 53)
    (same : Scalar.Same x (Scalar.ofNat n)) : Scalar.floor x = n ∧ Scalar.ceil x = n := by
  rcases Nat.eq_zero_or_pos n with rfl | some
  · rw [Scalar.Same, ofNat_zero, nonneg_iff, le_iff_unpack] at same
    change floor x = 0 ∧ ceil x = 0
    rw [floor, ceil]
    generalize x.toModel.unpack = u at same
    obtain ⟨below, forward⟩ := same
    cases forward with
    | zero s => exact ⟨rfl, rfl⟩
    | finite m e positive => exact absurd below Bool.false_ne_true
    | infinity => exact absurd below Bool.false_ne_true
  · rw [eq_ofNat_of_same some lt same]
    exact ⟨floor_ofNat (Nat.le_of_lt lt), ceil_ofNat lt⟩

end NumericalControl.Binary64
