/-
  NumericalControl/Proofs/Binary64/Nearest.lean
  =============================================
  **The nearest whole number.**  A value below `2 ^ 53` is rounded to a count, and a larger
  one has no fraction and is rounded to itself; so the whole part of what is rounded is the
  nearest whole number in either case (`floor_round`).

  A value whose nearest whole number is above a count is more than a half above that count.
  The difference need not be exact, but it is never rounded below a half
  (`half_le_sub`), for rounding does not fall below a representable value, in whatever
  unit the two are compared (`le_round_scaled`).
-/
import NumericalControl.Proofs.Binary64.Fraction

namespace NumericalControl.Binary64

open Float.Model Float.Model.UnpackedFloat

variable {m : Nat} {e : Int} {positive : 0 < m} {x : Float}

/-! ### Whole numbers -/

/-- A value without a fraction is the scalar of its whole part, however large it is. -/
theorem ofNat_whole (h : x.toModel.unpack = .finite .positive m e positive) (whole : 0 ≤ e) :
    Scalar.ofNat (m <<< e.toNat) = x := by
  obtain ⟨canonical, within⟩ := canonical_unpack h
  have large : 0 < m * 2 ^ e.toNat := Nat.mul_pos positive (Nat.two_pow_pos _)
  have packed : (Scalar.ofNat (m <<< e.toNat) : Float).toModel.unpack =
      (Float.Model.pack (if m <<< e.toNat = 0 then .zero .positive
        else UnpackedFloat.round .binary64 .positive (m <<< e.toNat) 0)).unpack := rfl
  have due : 0 ≤ Format.binary64.targetExponent (totalExponent (m * 2 ^ e.toNat) 0) := by
    have own := canonical.target_eq
    rw [targetExponent_eq] at own ⊢
    rw [log2_zeros positive]
    omega
  have zeros := roundWithAccuracy_zeros .positive canonical e.toNat
  rw [show e - (e.toNat : Int) = 0 by omega] at zeros
  refine unpack_inj ?_
  rw [packed, Nat.shiftLeft_eq, if_neg (Nat.ne_of_gt large), round_eq .positive due, zeros,
    unpack_pack_canonical canonical, if_pos within, h]

theorem round_finite (h : x.toModel.unpack = .finite .positive m e positive) :
    Scalar.round x = Scalar.ofNat (nearestWhole m e) := by
  change round x = _
  unfold round
  rw [h]
  rfl

/-- **The whole part of a rounded value is the nearest whole number.** -/
theorem floor_round (h : x.toModel.unpack = .finite .positive m e positive) :
    Scalar.floor (Scalar.round x) = nearestWhole m e := by
  have canonical := (canonical_unpack h).1
  rw [round_finite h, nearestWhole]
  split
  · rename_i whole
    rw [ofNat_whole h whole]
    change floor x = _
    simp only [floor, h, wholePart, if_pos whole]
  · rename_i part
    refine floor_ofNat ?_
    rw [Nat.shiftRight_eq_div_pow]
    have half : 2 * Nat.pow 2 ((-e).toNat - 1) = 2 ^ (-e).toNat := by
      rw [show (-e).toNat = (-e).toNat - 1 + 1 by omega, Nat.pow_succ', Nat.add_sub_cancel]
      rfl
    have unit : 2 ^ 1 ≤ 2 ^ (-e).toNat := Nat.pow_le_pow_right Nat.two_pos (by omega)
    refine Nat.div_le_of_le_mul ?_
    have lt := canonical.lt
    have many := Nat.mul_le_mul_left (2 ^ 52) unit
    omega

/-! ### Rounding in any unit -/

/-- **Rounding never falls below a canonical value that the exact one is not below**, also
    where the exact one has fewer digits. -/
theorem le_round_scaled (s : Sign) {m₁ m : Nat} {e₁ g u : Int} (h₁ : Canonical m₁ e₁)
    (positive : 0 < m) (least : -1074 ≤ g) (hu : u ≤ e₁) (hu' : u ≤ g)
    (h : m₁ * 2 ^ (e₁ - u).toNat ≤ m * 2 ^ (g - u).toNat) :
    ∃ n f, ∃ canonical : Canonical n f,
      UnpackedFloat.round .binary64 s m g = .finite s n f canonical.pos
        ∧ (e₁ < f ∨ e₁ = f ∧ m₁ ≤ n) := by
  by_cases few : m < 2 ^ 53
  · -- few digits are stored as they are
    obtain ⟨k, f, rfl, canonical⟩ := exists_canonical positive few least
    refine ⟨m * 2 ^ k, f, canonical, round_of_canonical s canonical, ?_⟩
    have below : min u f ≤ e₁ := by omega
    have unit : (e₁ - min u f).toNat = (e₁ - u).toNat + (u - min u f).toNat := by omega
    have unit' : k + (f - min u f).toNat = (f + k - u).toNat + (u - min u f).toNat := by omega
    rw [h₁.le_iff canonical below (Int.min_le_right u f), Nat.mul_assoc m, ← Nat.pow_add, unit,
      unit', Nat.pow_add, Nat.pow_add, ← Nat.mul_assoc, ← Nat.mul_assoc]
    exact Nat.mul_le_mul_right _ h
  · by_cases small : g ≤ e₁
    · have unit : (e₁ - u).toNat = (e₁ - g).toNat + (g - u).toNat := by omega
      rw [unit, Nat.pow_add, ← Nat.mul_assoc] at h
      exact le_round s h₁ small (Nat.le_of_mul_le_mul_right h (Nat.two_pow_pos _))
    · -- many digits have a larger exponent than the canonical value
      have full : Canonical (2 ^ 52) g :=
        ⟨Nat.two_pow_pos 52, by omega, least, .inl (Nat.le_refl _)⟩
      have reach : 2 ^ 52 * 2 ^ (g - g).toNat ≤ m := by
        rw [Int.sub_self, Int.toNat_zero]
        omega
      obtain ⟨n, f, canonical, rounded, above⟩ := le_round s full (Int.le_refl g) reach
      exact ⟨n, f, canonical, rounded, .inl (by omega)⟩

/-! ### Apart by a half -/

theorem abs_of_pos {x : Float} (h : (0.0 : Float) < x) : Scalar.abs x = x := by
  have packed : (Scalar.abs x).toModel.unpack =
      (Float.Model.pack x.toModel.unpack.abs).unpack := rfl
  refine unpack_inj (packed.trans ?_)
  rcases positive_iff.mp h with infinite | ⟨m, e, positive, finite⟩
  · rw [infinite]
    exact unpack_pack_infinity .positive
  · obtain ⟨canonical, within⟩ := canonical_unpack finite
    rw [finite]
    exact (unpack_pack_canonical canonical).trans (if_pos within)

/-- What is nearest to a number above a count is not nearer to the count than a half, in a
    unit below the value and one. -/
theorem half_le_of_lt_nearestWhole {k : Nat} {g : Int} (le : g ≤ e) (small : g ≤ 0)
    (beyond : k < nearestWhole m e) :
    (2 * k + 1) * 2 ^ (-g).toNat ≤ 2 * m * 2 ^ (e - g).toNat := by
  unfold nearestWhole at beyond
  split at beyond
  · rename_i whole
    have split : (e - g).toNat = e.toNat + (-g).toNat := by omega
    rw [split, Nat.pow_add, ← Nat.mul_assoc]
    refine Nat.mul_le_mul_right _ ?_
    rw [Nat.shiftLeft_eq] at beyond
    rw [Nat.mul_assoc]
    omega
  · rename_i part
    have split : (-g).toNat = (-e).toNat + (e - g).toNat := by omega
    have unit : 2 ^ (-e).toNat = 2 * Nat.pow 2 ((-e).toNat - 1) := by
      rw [show (-e).toNat = (-e).toNat - 1 + 1 by omega, Nat.pow_succ', Nat.add_sub_cancel]
      rfl
    rw [Nat.shiftRight_eq_div_pow, Nat.lt_iff_add_one_le,
      Nat.le_div_iff_mul_le (Nat.two_pow_pos _), unit] at beyond
    rw [split, Nat.pow_add, ← Nat.mul_assoc, unit]
    refine Nat.mul_le_mul_right _ ?_
    rw [Nat.add_mul] at beyond ⊢
    rw [Nat.mul_assoc 2 k]
    omega

/-- **A value that is nearest to a number above a count lies a half above the count.** -/
theorem half_le_sub (h : x.toModel.unpack = .finite .positive m e positive) {k : Nat}
    (counted : 0 < k) (lt : k < 2 ^ 53) (beyond : k < nearestWhole m e) :
    (0.5 : Float) ≤ x - Scalar.ofNat k := by
  have half : (0.5 : Float).toModel.unpack =
    .finite .positive (2 ^ 52) (-53) (Nat.two_pow_pos 52) := rfl
  have count := unpack_ofNat counted lt
  have log : k.log2 < 53 := (Nat.log2_lt (Nat.ne_of_gt counted)).mpr lt
  obtain ⟨c, hc⟩ : ∃ c, 52 - k.log2 = c := ⟨_, rfl⟩
  simp only [hc] at count
  -- the count is below the value, so its unit is no larger
  have unit : -(c : Int) ≤ e := by
    have above := half_le_of_lt_nearestWhole (Int.min_le_left e (-c)) (by omega) beyond
    have order := (canonical_unpack count).1.le_iff (canonical_unpack h).1
      (Int.min_le_right e (-c)) (Int.min_le_left e (-c))
    have digits : (-min e (-(c : Int))).toNat = c + (-(c : Int) - min e (-c)).toNat := by omega
    rw [digits, Nat.add_mul, Nat.pow_add, ← Nat.mul_assoc, Nat.mul_assoc 2 k,
      Nat.mul_assoc 2, Nat.mul_assoc 2] at above
    have := order.mpr (by omega)
    omega
  have smaller : min e (-(c : Int)) = -c := by omega
  have digits : (-(c : Int) - -c).toNat = 0 := by omega
  have above := half_le_of_lt_nearestWhole unit (by omega) beyond
  rw [Int.neg_neg, Int.toNat_natCast, Nat.add_mul, Nat.mul_assoc 2 k, Nat.mul_assoc 2 m] at above
  have positive' : 0 < 2 ^ c := Nat.two_pow_pos c
  rw [le_iff_unpack, half, unpack_sub, h, count,
    sub_finite positive _ (by rw [smaller, digits]; omega), smaller, digits, Nat.pow_zero,
    Nat.mul_one, if_neg (by omega)]
  -- the difference and a half, both in the unit of a half
  generalize hd : m * 2 ^ (e - -(c : Int)).toNat - k * 2 ^ c = d
  have reach : 2 ^ 52 * 2 ^ (-53 - -53 : Int).toNat ≤ d * 2 ^ (-(c : Int) - -53).toNat := by
    have split : (-(c : Int) - -53).toNat = (52 - c) + 1 := by omega
    have whole : 2 ^ c * 2 ^ (52 - c) = 2 ^ 52 := by
      rw [← Nat.pow_add]
      congr 1
      omega
    have twice : 2 ^ c ≤ d * 2 := by omega
    calc 2 ^ 52 * 2 ^ (-53 - -53 : Int).toNat
      _ = 2 ^ c * 2 ^ (52 - c) := whole.symm
      _ ≤ d * 2 * 2 ^ (52 - c) := Nat.mul_le_mul_right _ twice
      _ = d * 2 ^ (-(c : Int) - -53).toNat := by rw [split, Nat.pow_succ', Nat.mul_assoc]
  obtain ⟨n, f, canonical, rounded, le⟩ := le_round_scaled .positive (canonical_unpack half).1
    (by omega) (by omega) (by omega) (by omega) reach
  rw [rounded]
  exact finite_le_pack canonical le

end NumericalControl.Binary64
