/-
  NumericalControl/Proofs/Binary64/Fraction.lean
  ==============================================
  **Whole part and fraction.**  A value that is not above a count below `2 ^ 53` has at most
  53 digits in front of the point and behind it.  Its whole part is stored with the same
  exponent, so taking it away leaves the digits behind the point, which are fewer, and
  nothing is rounded.  What is left lies between zero and one (`fraction_between`).

  Nothing is left of a number that is taken away from itself (`sub_self`).
-/
import NumericalControl.Proofs.Binary64.Count

namespace NumericalControl.Binary64

open Float.Model Float.Model.UnpackedFloat

/-! ### Differences -/

theorem unpack_sub (a b : Float) :
    (a - b).toModel.unpack =
      (Float.Model.pack (UnpackedFloat.sub .binary64 a.toModel.unpack b.toModel.unpack)).unpack :=
  rfl

theorem unpack_zero : (0.0 : Float).toModel.unpack = .zero .positive := rfl

/-- Taking zero away changes nothing, also where there is no number. -/
theorem sub_zero (x : Float) : x - 0.0 = x := by
  refine unpack_inj ?_
  rw [unpack_sub, unpack_zero]
  cases h : x.toModel.unpack with
  | notANumber => exact unpack_pack_notANumber
  | infinity s => exact unpack_pack_infinity s
  | zero s => cases s <;> exact unpack_stored_zero _
  | finite s m e positive =>
    obtain ⟨canonical, within⟩ := canonical_unpack h
    exact (unpack_pack_canonical canonical).trans (if_pos within)

theorem sub_self {x : Float} (finite : Scalar.isFinite x = true) : x - x = 0.0 := by
  refine unpack_inj ?_
  rw [isFinite_iff] at finite
  rw [unpack_sub, unpack_zero]
  generalize x.toModel.unpack = u at finite
  have cancels : UnpackedFloat.sub .binary64 u u = .zero .positive := by
    cases u with
    | notANumber => cases finite
    | infinity s => cases finite
    | zero s => cases s <;> rfl
    | finite s m e positive =>
      simp only [UnpackedFloat.sub, Int.sub_self]
      rfl
  rw [cancels]
  exact unpack_stored_zero _

/-! ### Whole part and fraction -/

/-- The difference of two positive numbers of which the second is not larger, in the smaller
    of their units. -/
theorem sub_finite {m n : Nat} {e f : Int} (hm : 0 < m) (hn : 0 < n)
    (le : n * 2 ^ (f - min e f).toNat ≤ m * 2 ^ (e - min e f).toNat) :
    UnpackedFloat.sub .binary64 (.finite .positive m e hm) (.finite .positive n f hn) =
      if m * 2 ^ (e - min e f).toNat = n * 2 ^ (f - min e f).toNat then .zero .positive
      else UnpackedFloat.round .binary64 .positive
        (m * 2 ^ (e - min e f).toNat - n * 2 ^ (f - min e f).toNat) (min e f) := by
  have difference : UnpackedFloat.sub .binary64 (.finite .positive m e hm)
      (.finite .positive n f hn) =
      UnpackedFloat.normalize .binary64 (((m <<< (e - min e f).toNat : Nat) : Int)
        - ((n <<< (f - min e f).toNat : Nat) : Int)) (min e f) .positive := rfl
  rw [difference, Nat.shiftLeft_eq, Nat.shiftLeft_eq, ← Int.ofNat_sub le]
  unfold UnpackedFloat.normalize
  split_ifs with same
  · rw [same, Nat.sub_self]
    rfl
  · rw [compare_gt_iff_gt.mpr (Int.natCast_pos.mpr (Nat.sub_pos_of_lt (by omega)))]
    rfl

/-- A whole part that is not zero has the exponent of the value. -/
theorem unpack_whole {m j : Nat} (h : Canonical m (-j)) (atLeastOne : 0 < m / 2 ^ j) :
    (Scalar.ofNat (m / 2 ^ j) : Float).toModel.unpack =
      .finite .positive (m / 2 ^ j * 2 ^ j) (-j) (Nat.mul_pos atLeastOne (Nat.two_pow_pos j)) := by
  obtain ⟨-, lt, -, full⟩ := h
  have count : m / 2 ^ j < 2 ^ 53 := Nat.lt_of_le_of_lt (Nat.div_le_self _ _) lt
  have reach : 2 ^ j ≤ m := (Nat.div_pos_iff.mp atLeastOne).2
  have short : j < 53 := (Nat.pow_lt_pow_iff_right (by omega)).mp (Nat.lt_of_le_of_lt reach lt)
  have full : 2 ^ (52 - j + j) ≤ m := by
    rw [Nat.sub_add_cancel (by omega)]
    exact full.resolve_right (by omega)
  have lt : m < 2 ^ (52 - j + 1 + j) := by
    rwa [show 52 - j + 1 + j = 53 by omega]
  have log : (m / 2 ^ j).log2 = 52 - j := by
    rw [Nat.log2_eq_iff atLeastOne.ne', Nat.le_div_iff_mul_le (Nat.two_pow_pos j),
      Nat.div_lt_iff_lt_mul (Nat.two_pow_pos j), ← Nat.pow_add, ← Nat.pow_add]
    exact ⟨full, lt⟩
  have digits : 52 - (m / 2 ^ j).log2 = j := by omega
  rw [unpack_ofNat atLeastOne count]
  simp only [digits]

/-- **What is left of a value without its whole part lies between zero and one.** -/
theorem fraction_finite {m j : Nat} {positive : 0 < m} {x : Float}
    (h : x.toModel.unpack = .finite .positive m (-j) positive) (atLeastOne : 0 < m / 2 ^ j) :
    (0.0 : Float) ≤ x - Scalar.ofNat (m / 2 ^ j) ∧ x - Scalar.ofNat (m / 2 ^ j) ≤ 1.0 := by
  have canonical := (canonical_unpack h).1
  have below : m / 2 ^ j * 2 ^ j ≤ m := Nat.div_mul_le_self _ _
  have rest : m - m / 2 ^ j * 2 ^ j < 2 ^ j := by
    have := Nat.div_add_mod' m (2 ^ j)
    have := Nat.mod_lt m (Nat.two_pow_pos j)
    omega
  have lt : m - m / 2 ^ j * 2 ^ j < 2 ^ 53 := Nat.lt_of_le_of_lt (Nat.sub_le _ _) canonical.lt
  have unit : (-(j : Int) - min (-(j : Int)) (-j)).toNat = 0 := by omega
  rw [nonneg_iff, le_iff_unpack, unpack_sub, h, unpack_whole canonical atLeastOne,
    sub_finite positive _ (by rwa [unit, Nat.pow_zero, Nat.mul_one, Nat.mul_one]), unit,
    Int.min_self, Nat.pow_zero, Nat.mul_one, Nat.mul_one, unpack_one]
  split_ifs with same
  · exact ⟨forward_pack (.zero _), rfl⟩
  · have positive' : 0 < m - m / 2 ^ j * 2 ^ j := by omega
    generalize m - m / 2 ^ j * 2 ^ j = r at rest lt positive'
    -- the rest has few digits, so nothing is rounded
    obtain ⟨k, e, exponent, exact⟩ := exists_canonical positive' lt canonical.least
    have one : Canonical (2 ^ 52) (-52) := (canonical_unpack unpack_one).1
    -- a unit below the last digits of the rest and of one
    have unit : (e - (e - 52)).toNat = 52 := by omega
    have unit' : (-52 - (e - 52)).toNat = j + k := by omega
    rw [exponent, round_of_canonical .positive exact, unpack_pack_canonical exact,
      if_pos (by omega), finite_le_iff, exact.le_iff one (Int.sub_le_self e (by omega))
        (by omega : e - 52 ≤ -52), unit, unit', Nat.mul_comm (2 ^ 52), Nat.pow_add]
    refine ⟨.finite _ _ _, ?_⟩
    exact Nat.mul_le_mul_right _ (Nat.mul_le_mul_right _ (Nat.le_of_lt rest))

theorem zero_le_one : (0.0 : Float) ≤ 1.0 := by decide +kernel

theorem one_le_one : (1.0 : Float) ≤ 1.0 := by decide +kernel

theorem ofNat_one : (Scalar.ofNat 1 : Float) = 1.0 := by
  decide +kernel

theorem floor_ceil (x : Float) :
    Scalar.floor x ≤ Scalar.ceil x ∧ Scalar.ceil x ≤ Scalar.floor x + 1 := by
  change floor x ≤ ceil x ∧ ceil x ≤ floor x + 1
  unfold floor ceil
  split
  · split <;> omega
  · omega

theorem ceil_le_iff_of_le {x : Float} {n k : Nat} (above : (0.0 : Float) ≤ x)
    (le : x ≤ Scalar.ofNat n) (lt : n < 2 ^ 53) (lt' : k < 2 ^ 53) :
    Scalar.ceil x ≤ k ↔ x ≤ Scalar.ofNat k := by
  by_cases small : x ≤ 0.0
  · have same : Scalar.Same x (Scalar.ofNat 0) := by
      rw [ofNat_zero]
      exact ⟨small, above⟩
    rw [(floor_ceil_of_same (by omega) same).2]
    exact ⟨fun _ => OrderedScalar.le_trans small (zero_le_ofNat k), fun _ => Nat.zero_le k⟩
  · have positive : (0.0 : Float) < x := OrderedScalar.lt_iff.mpr ⟨above, small⟩
    obtain ⟨m, e, hm, finite⟩ := exists_finite positive le lt
    exact ceil_le_iff finite lt'

theorem floor_le {x : Float} {n : Nat} (above : (0.0 : Float) ≤ x) (le : x ≤ Scalar.ofNat n)
    (lt : n < 2 ^ 53) : Scalar.floor x ≤ n :=
  Nat.le_trans (floor_ceil x).1 ((ceil_le_iff_of_le above le lt lt).mpr le)

/-- A value with a whole part that is a count has no zeros to add. -/
theorem exists_digits {x : Float} {n : Nat} (above : (0.0 : Float) ≤ x) (le : x ≤ Scalar.ofNat n)
    (lt : n < 2 ^ 53) (atLeastOne : 0 < Scalar.floor x) :
    ∃ m j : Nat, ∃ positive : 0 < m, x.toModel.unpack = .finite .positive m (-j) positive ∧
      Scalar.floor x = m / 2 ^ j := by
  have count := floor_le above le lt
  have positive : (0.0 : Float) < x := by
    refine OrderedScalar.lt_iff.mpr ⟨above, fun small => ?_⟩
    rw [← ofNat_zero] at above small
    have whole := (floor_ceil_of_same (by omega) ⟨small, above⟩).1
    omega
  obtain ⟨m, e, hm, finite⟩ := exists_finite positive le lt
  have whole : Scalar.floor x = wholePart m e := by
    change floor x = _
    simp only [floor, finite]
  have small : e ≤ 0 := by
    by_contra large
    have full := (canonical_unpack finite).1.full.resolve_right (by omega)
    rw [whole, wholePart, if_pos (by omega), Nat.shiftLeft_eq] at count
    have two : 2 ^ 1 ≤ 2 ^ e.toNat := Nat.pow_le_pow_right Nat.two_pos (by omega)
    have := Nat.mul_le_mul full two
    omega
  obtain ⟨j, rfl⟩ : ∃ j : Nat, e = -j := ⟨(-e).toNat, by omega⟩
  refine ⟨m, j, hm, finite, ?_⟩
  rw [whole, wholePart]
  split_ifs with integral
  · obtain rfl : j = 0 := by omega
    simp
  · rw [Int.neg_neg, Int.toNat_natCast, Nat.shiftRight_eq_div_pow]

/-- **A value without its whole part lies between zero and one.** -/
theorem fraction_between {x : Float} {n : Nat} (above : (0.0 : Float) ≤ x)
    (le : x ≤ Scalar.ofNat n) (lt : n < 2 ^ 53) :
    (0.0 : Float) ≤ x - Scalar.ofNat (Scalar.floor x) ∧
      x - Scalar.ofNat (Scalar.floor x) ≤ 1.0 := by
  rcases Nat.eq_zero_or_pos (Scalar.floor x) with zero | atLeastOne
  · have short : Scalar.ceil x ≤ 1 := by
      have := (floor_ceil x).2
      omega
    have one : x ≤ Scalar.ofNat 1 := (ceil_le_iff_of_le above le lt (by omega)).mp short
    rw [zero, ofNat_zero, sub_zero]
    exact ⟨above, ofNat_one ▸ one⟩
  · obtain ⟨m, j, positive, digits, whole⟩ := exists_digits above le lt atLeastOne
    rw [whole] at atLeastOne ⊢
    exact fraction_finite digits atLeastOne

end NumericalControl.Binary64
