/-
  NumericalControl/Proofs/Binary64/Whole.lean
  ===========================================
  **Whole numbers are exact.**  Rounding changes nothing where there is nothing to round:
  a canonical significand with zeros behind it comes back as it was
  (`roundWithAccuracy_zeros`).  So a product with one is the other factor, in every bit,
  and a count up to `2 ^ 53` is the scalar whose whole part is the count.

  A value is stored in one way only, so two values that are unpacked alike are equal.
-/
import NumericalControl.Proofs.Binary64.Forward

namespace NumericalControl.Binary64

open Float.Model Float.Model.UnpackedFloat

/-! ### Nothing to round -/

/-- Zeros that are shifted out leave neither a bit to round nor a rest. -/
theorem shiftRight_zeros (m n : Nat) :
    (ExtendedMantissa.mk (m * 2 ^ n) false false) >>> n = ⟨m, false, false⟩ := by
  change n.repeat ExtendedMantissa.shiftRightOne ⟨m * 2 ^ n, false, false⟩ = _
  induction n generalizing m with
  | zero => simp [Nat.repeat]
  | succ n ih =>
    rw [Nat.repeat, Nat.pow_succ', ← Nat.mul_assoc, ih]
    simp [ExtendedMantissa.shiftRightOne]

theorem log2_zeros {m : Nat} (positive : 0 < m) (k : Nat) :
    (m * 2 ^ k).log2 = m.log2 + k := by
  induction k with
  | zero => rw [Nat.pow_zero, Nat.mul_one, Nat.add_zero]
  | succ k ih =>
    have nonzero : m * 2 ^ k ≠ 0 := (Nat.mul_pos positive (Nat.two_pow_pos k)).ne'
    rw [Nat.pow_succ', Nat.mul_left_comm, Nat.log2_two_mul nonzero, ih, Nat.add_assoc]

/-- **A canonical value with zeros behind it is rounded to itself.** -/
theorem roundWithAccuracy_zeros (s : Sign) {m : Nat} {e : Int} (h : Canonical m e) (k : Nat) :
    roundWithAccuracy .binary64 s (m * 2 ^ k) (e - k) .exact = .finite s m e h.pos := by
  have due : Format.binary64.targetExponent (totalExponent (m * 2 ^ k) (e - k)) = e := by
    have own := h.target_eq
    rw [targetExponent_eq] at own ⊢
    rw [log2_zeros h.pos]
    omega
  have shifted : shiftToTargetExponent .binary64 (m * 2 ^ k) (e - k) .exact =
      (⟨m, false, false⟩, e) := by
    simp only [shiftToTargetExponent, due, shiftToExponent,
      show (e - (e - (k : Int))).toNat = k by omega, Int.sub_add_cancel]
    exact congrArg (·, e) (shiftRight_zeros m k)
  rw [roundWithAccuracy_eq, shifted]
  exact carried_canonical h

/-- **A number with few enough digits is rounded to itself**, with zeros behind it. -/
theorem round_of_canonical (s : Sign) {m k : Nat} {e : Int} (h : Canonical (m * 2 ^ k) e) :
    UnpackedFloat.round .binary64 s m (e + k) = .finite s (m * 2 ^ k) e h.pos := by
  have positive : 0 < m := Nat.pos_of_mul_pos_right h.pos
  have due : Format.binary64.targetExponent (totalExponent m (e + k)) = e := by
    have own := h.target_eq
    rw [targetExponent_eq, log2_zeros positive] at own
    rw [targetExponent_eq]
    omega
  have shift : (e + (k : Int) - e).toNat = k := by omega
  unfold UnpackedFloat.round decreaseExponent
  dsimp only
  rw [due, shift, Nat.shiftLeft_eq, Int.add_sub_cancel]
  have exact := roundWithAccuracy_zeros s h 0
  rwa [Nat.pow_zero, Nat.mul_one, Int.natCast_zero, Int.sub_zero] at exact

/-- A number of up to 53 digits has a canonical form with zeros behind it. -/
theorem exists_canonical {m : Nat} {g : Int} (positive : 0 < m) (lt : m < 2 ^ 53)
    (least : -1074 ≤ g) : ∃ (k : Nat) (e : Int), g = e + k ∧ Canonical (m * 2 ^ k) e := by
  have log : m.log2 < 53 := (Nat.log2_lt (Nat.ne_of_gt positive)).mpr lt
  let k := min (52 - m.log2) (g + 1074).toNat
  have more : 0 < m * 2 ^ k := Nat.mul_pos positive (Nat.two_pow_pos _)
  refine ⟨k, g - k, (Int.sub_add_cancel g k).symm, more, ?_, by omega, ?_⟩
  · rw [← Nat.log2_lt more.ne', log2_zeros positive]
    omega
  · rw [← Nat.le_log2 more.ne', log2_zeros positive]
    omega

/-! ### One -/

theorem unpack_inj {x y : Float} (h : x.toModel.unpack = y.toModel.unpack) : x = y := by
  obtain ⟨⟨bits, valid⟩⟩ := x
  obtain ⟨⟨bits', valid'⟩⟩ := y
  have same : bits.toBitVec = bits'.toBitVec := (unpack_inj_of_valid valid valid').mp h
  obtain rfl : bits = bits' := UInt64.eq_of_toBitVec_eq same
  rfl

theorem mul_positive (s : Sign) : s * .positive = s := by
  cases s <;> rfl

theorem unpack_one : (1.0 : Float).toModel.unpack =
    .finite .positive (2 ^ 52) (-52) (Nat.two_pow_pos 52) := rfl

/-- **A product with one is the other factor**, also where that is no number. -/
theorem mul_one (x : Float) : x * 1.0 = x := by
  refine unpack_inj ?_
  rw [unpack_mul, unpack_one]
  cases h : x.toModel.unpack with
  | notANumber => exact unpack_pack_notANumber
  | infinity s => exact (unpack_pack_infinity _).trans (by rw [mul_positive])
  | zero s => exact (unpack_stored_zero _).trans (by rw [mul_positive])
  | finite s m e positive =>
    obtain ⟨canonical, within⟩ := canonical_unpack h
    have product : UnpackedFloat.mul .binary64 (.finite s m e positive)
        (.finite .positive (2 ^ 52) (-52) (Nat.two_pow_pos 52)) = .finite s m e positive := by
      change roundWithAccuracy .binary64 (s * .positive) (m * 2 ^ 52) (e - (52 : Nat)) .exact = _
      rw [mul_positive, roundWithAccuracy_zeros s canonical]
    rw [product, unpack_pack_canonical canonical, if_pos within]

/-! ### Counts -/

theorem zero_le_ofNat (n : Nat) : (0.0 : Float) ≤ Scalar.ofNat n := by
  rw [nonneg_iff]
  refine forward_pack ?_
  split
  · exact .zero _
  · exact forward_round _ _ _

/-- A count below `2 ^ 53` is stored with zeros behind it. -/
theorem unpack_ofNat {n : Nat} (positive : 0 < n) (lt : n < 2 ^ 53) :
    (Scalar.ofNat n : Float).toModel.unpack =
      .finite .positive (n * 2 ^ (52 - n.log2)) (-(52 - n.log2 : Nat))
        (Nat.mul_pos positive (Nat.two_pow_pos _)) := by
  have log : n.log2 < 53 := (Nat.log2_lt (Nat.ne_of_gt positive)).mpr lt
  have canonical : Canonical (n * 2 ^ (52 - n.log2)) (-(52 - n.log2 : Nat)) := by
    refine ⟨Nat.mul_pos positive (Nat.two_pow_pos _), ?_, by omega, .inl ?_⟩
    · rw [← Nat.log2_lt (Nat.mul_pos positive (Nat.two_pow_pos _)).ne', log2_zeros positive]
      omega
    · rw [← Nat.le_log2 (Nat.mul_pos positive (Nat.two_pow_pos _)).ne', log2_zeros positive]
      omega
  have rounded : UnpackedFloat.round .binary64 .positive n 0 =
      .finite .positive (n * 2 ^ (52 - n.log2)) (-(52 - n.log2 : Nat)) canonical.pos := by
    have exact := round_of_canonical .positive canonical
    rwa [Int.add_left_neg] at exact
  have packed : (Scalar.ofNat n : Float).toModel.unpack =
      (Float.Model.pack (if n = 0 then .zero .positive
        else UnpackedFloat.round .binary64 .positive n 0)).unpack := rfl
  rw [packed, if_neg (Nat.ne_of_gt positive), rounded, unpack_pack_canonical canonical,
    if_pos (by omega)]

/-- **The whole part of a count is the count.** -/
theorem floor_ofNat {n : Nat} (le : n ≤ 2 ^ 53) : Scalar.floor (Scalar.ofNat n : Float) = n := by
  rcases Nat.eq_or_lt_of_le le with rfl | lt
  · decide +kernel
  · rcases Nat.eq_zero_or_pos n with rfl | positive
    · rfl
    · change floor _ = n
      unfold floor
      rw [unpack_ofNat positive lt]
      simp only [wholePart]
      split
      · rename_i full
        have unshifted : 52 - n.log2 = 0 := by omega
        simp [unshifted]
      · rw [show (- -((52 - n.log2 : Nat) : Int)).toNat = 52 - n.log2 by omega,
          Nat.shiftRight_eq_div_pow]
        exact Nat.mul_div_cancel n (Nat.two_pow_pos _)

end NumericalControl.Binary64
