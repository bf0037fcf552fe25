/-
  NumericalControl/Proofs/Binary64/Canonical.lean
  ===============================================
  **Canonical form.**  The significand of a finite value has 53 bits, or fewer when the
  exponent is the least there is (`Canonical`).  What is unpacked is canonical.  A
  canonical value that is packed and unpacked again is the same, or infinite when its
  exponent is too large; any finite value that is packed keeps its sign and stays defined.
-/
import Mathlib
import NumericalControl.Scalar.Binary64

namespace NumericalControl.Binary64

open Float.Model Float.Model.UnpackedFloat

/-- The form in which a positive significand and its exponent are stored. -/
structure Canonical (m : Nat) (e : Int) : Prop where
  pos : 0 < m
  lt : m < 2 ^ 53
  least : -1074 ≤ e
  full : 2 ^ 52 ≤ m ∨ e = -1074

theorem targetExponent_eq (m : Nat) (e : Int) :
    Format.binary64.targetExponent (totalExponent m e) = max ((m.log2 : Int) + e - 52) (-1074) := by
  unfold Format.targetExponent Format.mantissaBits Format.minExponent totalExponent
  simp only [Format.mantissaBits]
  omega

theorem Canonical.target_eq {m : Nat} {e : Int} (h : Canonical m e) :
    Format.binary64.targetExponent (totalExponent m e) = e := by
  obtain ⟨pos, lt, least, full⟩ := h
  have upper : m.log2 < 53 := (Nat.log2_lt (Nat.ne_of_gt pos)).mpr lt
  rw [targetExponent_eq]
  rcases full with full | rfl
  · have lower : 52 ≤ m.log2 := (Nat.le_log2 (Nat.ne_of_gt pos)).mpr full
    omega
  · omega

/-! ### Packing -/

theorem toNat_implicit (m : BitVec 52) : (1#1 ++ m).toNat = 2 ^ 52 + m.toNat := by
  rw [BitVec.toNat_append, ← Nat.shiftLeft_add_eq_or_of_lt m.isLt]
  rfl

theorem toNat_implicit_pos (m : BitVec 52) : 0 < (1#1 ++ m).toNat := by
  rw [toNat_implicit]
  omega

theorem toNat_lt_of_ne {e : BitVec 11} (h : e ≠ -1#11) : e.toNat < 2047 := by
  have small : e.toNat < 2048 := e.isLt
  have other : e.toNat ≠ 2047 := fun same => h (BitVec.eq_of_toNat_eq same)
  omega

theorem toNat_pos_of_ne {n : Nat} {v : BitVec n} (h : v ≠ 0#n) : 0 < v.toNat := by
  refine Nat.pos_of_ne_zero fun zero => h (BitVec.eq_of_toNat_eq ?_)
  rw [zero, BitVec.toNat_zero]

theorem exponentBias_eq : Format.binary64.exponentBias = 1023 := rfl

/-- **What is unpacked is canonical**, and its exponent is in range. -/
theorem canonical_unpack {x : Float.Model} {s : Sign} {m : Nat} {e : Int} {positive : 0 < m}
    (h : x.unpack = .finite s m e positive) : Canonical m e ∧ e ≤ 971 := by
  have lt : (@unpackMantissa .binary64 x.toBits.toBitVec).toNat < 2 ^ 52 := BitVec.isLt _
  unfold Float.Model.unpack UnpackedFloat.unpack at h
  rw [exponentBias_eq] at h
  dsimp only at h
  split at h
  · split at h
    · cases h
    · cases h
  · rename_i top
    have top := toNat_lt_of_ne top
    split at h
    · rename_i bottom
      split at h
      · cases h
      · rw [bottom, BitVec.toNat_zero] at h
        injection h with _ hm he
        exact ⟨⟨positive, by omega, by omega, by omega⟩, by omega⟩
    · rename_i bottom
      have bottom := toNat_pos_of_ne bottom
      injection h with _ hm he
      rw [toNat_implicit] at hm
      exact ⟨⟨positive, by omega, by omega, by omega⟩, by omega⟩

theorem unpack_normal {s : Sign} {exponent : BitVec 11} {mantissa : BitVec 52}
    (top : exponent ≠ -1#11) (bottom : exponent ≠ 0#11) :
    UnpackedFloat.unpack .binary64 (packComponents .binary64 s exponent mantissa) =
      .finite s (1#1 ++ mantissa).toNat (exponent.toNat - 1075) (toNat_implicit_pos mantissa) := by
  unfold UnpackedFloat.unpack
  simp only [unpackMantissa_packComponents, unpackExponent_packComponents,
    unpackSign_packComponents, Sign.ofBitVec_toBitVec, if_neg top, if_neg bottom]
  rfl

theorem unpack_subnormal {s : Sign} {mantissa : BitVec 52} (h : mantissa ≠ 0#52) :
    UnpackedFloat.unpack .binary64 (packComponents .binary64 s 0#11 mantissa) =
      .finite s mantissa.toNat (-1074) (toNat_pos_of_ne h) := by
  unfold UnpackedFloat.unpack
  simp only [unpackMantissa_packComponents, unpackExponent_packComponents,
    unpackSign_packComponents, Sign.ofBitVec_toBitVec, dif_neg h]
  rfl

theorem unpack_stored_zero (s : Sign) :
    UnpackedFloat.unpack .binary64 (packComponents .binary64 s 0#11 0#52) = .zero s := by
  unfold UnpackedFloat.unpack
  simp only [unpackMantissa_packComponents, unpackExponent_packComponents,
    unpackSign_packComponents, Sign.ofBitVec_toBitVec]
  rfl

theorem unpack_packedInfinity (s : Sign) :
    UnpackedFloat.unpack .binary64 (packedInfinity .binary64 s) = .infinity s := by
  unfold UnpackedFloat.unpack packedInfinity
  simp only [unpackMantissa_packComponents, unpackExponent_packComponents,
    unpackSign_packComponents, Sign.ofBitVec_toBitVec]
  rfl

theorem unpack_pack_eq (s : Sign) (m : Nat) (e : Int) (positive : 0 < m) :
    (Float.Model.pack (.finite s m e positive)).unpack =
      UnpackedFloat.unpack .binary64
        (if 2048 ≤ (e + 1023 + 52).toNat + 1 then packedInfinity .binary64 s
        else if m.log2 + 1 = 53 then
          packComponents .binary64 s (BitVec.ofNat 11 (e + 1023 + 52).toNat) (BitVec.ofNat 52 m)
        else packComponents .binary64 s 0#11 (BitVec.ofNat 52 m)) := rfl

theorem toNat_storedExponent {e : Int} (within : e ≤ 971) :
    (BitVec.ofNat 11 (e + 1023 + 52).toNat).toNat = (e + 1023 + 52).toNat := by
  rw [BitVec.toNat_ofNat]
  omega

theorem unpack_pack_normal {s : Sign} {m : Nat} {e : Int} (h : Canonical m e) (within : e ≤ 971)
    (normal : 2 ^ 52 ≤ m) :
    (Float.Model.pack (.finite s m e h.pos)).unpack = .finite s m e h.pos := by
  obtain ⟨pos, lt, least, -⟩ := h
  have log : m.log2 + 1 = 53 := by
    have upper := (Nat.log2_lt (Nat.ne_of_gt pos)).mpr lt
    have lower := (Nat.le_log2 (Nat.ne_of_gt pos)).mpr normal
    omega
  have exponent := toNat_storedExponent within
  have top : BitVec.ofNat 11 (e + 1023 + 52).toNat ≠ -1#11 := by
    apply BitVec.toNat_ne_iff_ne.mp
    rw [exponent, show (-1#11).toNat = 2047 from rfl]
    omega
  have bottom : BitVec.ofNat 11 (e + 1023 + 52).toNat ≠ 0#11 := by
    apply BitVec.toNat_ne_iff_ne.mp
    rw [exponent, BitVec.toNat_zero]
    omega
  rw [unpack_pack_eq, if_neg (by omega), if_pos log, unpack_normal top bottom]
  congr 1
  · rw [toNat_implicit, BitVec.toNat_ofNat]
    omega
  · rw [exponent]
    omega

theorem unpack_pack_subnormal {s : Sign} {m : Nat} (pos : 0 < m) (small : m < 2 ^ 52) :
    (Float.Model.pack (.finite s m (-1074) pos)).unpack = .finite s m (-1074) pos := by
  have log : ¬m.log2 + 1 = 53 := by
    have upper := (Nat.log2_lt (Nat.ne_of_gt pos)).mpr small
    omega
  have mantissa : (BitVec.ofNat 52 m).toNat = m := by
    rw [BitVec.toNat_ofNat]
    omega
  have nonzero : BitVec.ofNat 52 m ≠ 0#52 := by
    apply BitVec.toNat_ne_iff_ne.mp
    rw [mantissa, BitVec.toNat_zero]
    omega
  rw [unpack_pack_eq, if_neg (by omega), if_neg log, unpack_subnormal nonzero]
  congr 1

/-- **A canonical value comes back from its packed form, or as infinity.** -/
theorem unpack_pack_canonical {s : Sign} {m : Nat} {e : Int} (h : Canonical m e) :
    (Float.Model.pack (.finite s m e h.pos)).unpack =
      if e ≤ 971 then .finite s m e h.pos else .infinity s := by
  split
  · rename_i within
    by_cases normal : 2 ^ 52 ≤ m
    · exact unpack_pack_normal h within normal
    · obtain rfl : e = -1074 := h.full.resolve_left normal
      exact unpack_pack_subnormal h.pos (Nat.lt_of_not_le normal)
  · rw [unpack_pack_eq, if_pos (by omega), unpack_packedInfinity]

/-- **A finite value that is packed keeps its sign and stays defined.** -/
theorem unpack_pack_finite (s : Sign) (m : Nat) (e : Int) (positive : 0 < m) :
    (Float.Model.pack (.finite s m e positive)).unpack = .infinity s
      ∨ (Float.Model.pack (.finite s m e positive)).unpack = .zero s
      ∨ ∃ n f, ∃ positive' : 0 < n,
        (Float.Model.pack (.finite s m e positive)).unpack = .finite s n f positive' := by
  rw [unpack_pack_eq]
  split
  · exact .inl (unpack_packedInfinity s)
  · split
    · by_cases bottom : BitVec.ofNat 11 (e + 1023 + 52).toNat = 0#11
      · rw [bottom]
        by_cases zero : BitVec.ofNat 52 m = 0#52
        · rw [zero]
          exact .inr (.inl (unpack_stored_zero s))
        · exact .inr (.inr ⟨_, _, toNat_pos_of_ne zero, unpack_subnormal zero⟩)
      · have top : BitVec.ofNat 11 (e + 1023 + 52).toNat ≠ -1#11 := by
          apply BitVec.toNat_ne_iff_ne.mp
          rw [BitVec.toNat_ofNat, show (-1#11).toNat = 2047 from rfl]
          omega
        exact .inr (.inr ⟨_, _, toNat_implicit_pos _, unpack_normal top bottom⟩)
    · by_cases zero : BitVec.ofNat 52 m = 0#52
      · rw [zero]
        exact .inr (.inl (unpack_stored_zero s))
      · exact .inr (.inr ⟨_, _, toNat_pos_of_ne zero, unpack_subnormal zero⟩)

end NumericalControl.Binary64
