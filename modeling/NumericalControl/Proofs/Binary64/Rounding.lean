/-
  NumericalControl/Proofs/Binary64/Rounding.lean
  ==============================================
  **Rounding never falls below a representable value.**  Rounding shifts a significand
  right until it has 53 bits and then adds at most one.  What is shifted is cut off, so the
  result is at least the whole part; and a canonical value below the exact one is below
  its whole part too, for it has the exponent of the result or a smaller one
  (`le_round`).

  The result of rounding is canonical (`roundWithAccuracy_cases`), so that it survives
  being packed.
-/
import NumericalControl.Proofs.Binary64.Canonical

namespace NumericalControl.Binary64

open Float.Model Float.Model.UnpackedFloat

/-! ### Shifts -/

theorem mantissa_shiftRight (em : ExtendedMantissa) (n : Nat) :
    (em >>> n).mantissa = em.mantissa / 2 ^ n := by
  change (n.repeat ExtendedMantissa.shiftRightOne em).mantissa = _
  induction n with
  | zero => exact (Nat.div_one _).symm
  | succ n ih =>
    rw [Nat.repeat, Nat.pow_succ, ← Nat.div_div_eq_div_mul, ← ih]
    rfl

theorem mantissa_ofMantissaAndAccuracy (m : Nat) (accuracy : Accuracy) :
    (ExtendedMantissa.ofMantissaAndAccuracy m accuracy).mantissa = m := by
  unfold ExtendedMantissa.ofMantissaAndAccuracy
  split <;> rfl

theorem roundedMantissa_bounds (em : ExtendedMantissa) :
    em.mantissa ≤ em.roundedMantissa ∧ em.roundedMantissa ≤ em.mantissa + 1 := by
  unfold ExtendedMantissa.roundedMantissa Accuracy.roundToNearestEven
  split <;> omega

theorem shiftToTargetExponent_eq (m : Nat) (e : Int) (accuracy : Accuracy) :
    let n := (Format.binary64.targetExponent (totalExponent m e) - e).toNat
    (shiftToTargetExponent .binary64 m e accuracy).1.mantissa = m / 2 ^ n
      ∧ (shiftToTargetExponent .binary64 m e accuracy).2 = e + n := by
  refine ⟨?_, rfl⟩
  unfold shiftToTargetExponent shiftToExponent
  rw [mantissa_shiftRight, mantissa_ofMantissaAndAccuracy]

/-- What is left has 53 bits, or fewer at the least exponent. -/
theorem cut_bounds {m : Nat} {e : Int} (positive : 0 < m)
    (h : e ≤ Format.binary64.targetExponent (totalExponent m e)) :
    let E := Format.binary64.targetExponent (totalExponent m e)
    let n := (E - e).toNat
    m / 2 ^ n < 2 ^ 53 ∧ -1074 ≤ E ∧ (2 ^ 52 ≤ m / 2 ^ n ∨ E = -1074) := by
  intro E n
  have hE : E = max ((m.log2 : Int) + e - 52) (-1074) := targetExponent_eq m e
  refine ⟨?_, by omega, ?_⟩
  · refine Nat.div_lt_of_lt_mul ?_
    rw [← Nat.pow_add]
    refine Nat.lt_of_lt_of_le Nat.lt_log2_self (Nat.pow_le_pow_right (by omega) ?_)
    omega
  · by_cases least : E = -1074
    · exact .inr least
    · refine .inl ((Nat.le_div_iff_mul_le (Nat.two_pow_pos n)).mpr ?_)
      rw [← Nat.pow_add]
      refine Nat.le_trans (Nat.pow_le_pow_right (by omega) ?_)
        (Nat.log2_self_le (Nat.ne_of_gt positive))
      omega

/-! ### Rounding -/

/-- The value of a rounded significand, shifted once more in case a bit was carried over. -/
def carried (s : Sign) (r : Nat) (E : Int) : UnpackedFloat :=
  let second := shiftToTargetExponent .binary64 r E .exact
  if h : second.1.mantissa = 0 then .zero s
  else .finite s second.1.mantissa second.2 (Nat.pos_of_ne_zero h)

theorem roundWithAccuracy_eq (s : Sign) (m : Nat) (e : Int) (accuracy : Accuracy) :
    roundWithAccuracy .binary64 s m e accuracy =
      carried s (shiftToTargetExponent .binary64 m e accuracy).1.roundedMantissa
        (shiftToTargetExponent .binary64 m e accuracy).2 := rfl

theorem carried_eq {s : Sign} {r n : Nat} {E : Int} {k : Nat}
    (hk : (Format.binary64.targetExponent (totalExponent r E) - E).toNat = k)
    (hn : r / 2 ^ k = n) (positive : 0 < n) :
    carried s r E = .finite s n (E + k) positive := by
  obtain ⟨mantissa, exponent⟩ := shiftToTargetExponent_eq r E .exact
  rw [hk, hn] at mantissa
  rw [hk] at exponent
  unfold carried
  dsimp only
  rw [dif_neg (by rw [mantissa]; exact Nat.ne_of_gt positive)]
  congr 1

theorem carried_zero (s : Sign) : carried s 0 (-1074) = .zero s := rfl

theorem carried_canonical {s : Sign} {r : Nat} {E : Int} (h : Canonical r E) :
    carried s r E = .finite s r E h.pos := by
  have stays : (Format.binary64.targetExponent (totalExponent r E) - E).toNat = 0 := by
    rw [h.target_eq]
    omega
  rw [carried_eq stays (Nat.div_one r) h.pos]
  congr 1
  omega

theorem carried_over {s : Sign} {E : Int} (least : -1074 ≤ E) :
    carried s (2 ^ 53) E = .finite s (2 ^ 52) (E + 1) (Nat.two_pow_pos 52) := by
  have moves : (Format.binary64.targetExponent (totalExponent (2 ^ 53) E) - E).toNat = 1 := by
    rw [targetExponent_eq, Nat.log2_two_pow]
    omega
  exact carried_eq moves rfl (Nat.two_pow_pos 52)

/-- **What rounding gives**: a significand that is not below the one that was cut, at the
    exponent that is due, or at the next one when a bit was carried over. -/
theorem roundWithAccuracy_cases (s : Sign) {m : Nat} {e : Int} (positive : 0 < m)
    (accuracy : Accuracy) (h : e ≤ Format.binary64.targetExponent (totalExponent m e)) :
    let E := Format.binary64.targetExponent (totalExponent m e)
    let cut := m / 2 ^ (E - e).toNat
    (cut = 0 ∧ E = -1074 ∧ roundWithAccuracy .binary64 s m e accuracy = .zero s)
      ∨ (∃ n, ∃ canonical : Canonical n E, cut ≤ n ∧
          roundWithAccuracy .binary64 s m e accuracy = .finite s n E canonical.pos)
      ∨ ∃ canonical : Canonical (2 ^ 52) (E + 1),
          roundWithAccuracy .binary64 s m e accuracy =
            .finite s (2 ^ 52) (E + 1) canonical.pos := by
  intro E cut
  obtain ⟨lt, least, full⟩ : cut < 2 ^ 53 ∧ -1074 ≤ E ∧ (2 ^ 52 ≤ cut ∨ E = -1074) :=
    cut_bounds positive h
  obtain ⟨mantissa, exponent⟩ := shiftToTargetExponent_eq m e accuracy
  have hE : (shiftToTargetExponent .binary64 m e accuracy).2 = E := by
    rw [exponent]
    omega
  obtain ⟨lower, upper⟩ := roundedMantissa_bounds (shiftToTargetExponent .binary64 m e accuracy).1
  rw [roundWithAccuracy_eq, hE]
  generalize (shiftToTargetExponent .binary64 m e accuracy).1.roundedMantissa = r at lower upper ⊢
  rw [mantissa] at lower upper
  change cut ≤ r at lower
  change r ≤ cut + 1 at upper
  clear_value cut E
  by_cases zero : r = 0
  · refine .inl ⟨by omega, by omega, ?_⟩
    rw [zero, show E = -1074 by omega, carried_zero]
  · by_cases full : r = 2 ^ 53
    · refine .inr (.inr ⟨⟨Nat.two_pow_pos 52, by omega, by omega, .inl (Nat.le_refl _)⟩, ?_⟩)
      rw [full, carried_over least]
    · have canonical : Canonical r E := ⟨by omega, by omega, least, by omega⟩
      exact .inr (.inl ⟨r, canonical, lower, carried_canonical canonical⟩)

theorem roundWithAccuracy_sign (s : Sign) (m : Nat) (e : Int) (accuracy : Accuracy) :
    roundWithAccuracy .binary64 s m e accuracy = .zero s
      ∨ ∃ n f, ∃ positive : 0 < n,
        roundWithAccuracy .binary64 s m e accuracy = .finite s n f positive := by
  rw [roundWithAccuracy_eq]
  unfold carried
  dsimp only
  split
  · exact .inl rfl
  · rename_i nonzero
    exact .inr ⟨_, _, Nat.pos_of_ne_zero nonzero, rfl⟩

/-- A value that is not below a canonical one is due an exponent that is not below. -/
theorem le_targetExponent {m₁ m : Nat} {e₁ g : Int} (h₁ : Canonical m₁ e₁) (hg : g ≤ e₁)
    (h : m₁ * 2 ^ (e₁ - g).toNat ≤ m) :
    e₁ ≤ Format.binary64.targetExponent (totalExponent m g) := by
  have positive : 0 < m := Nat.lt_of_lt_of_le (Nat.mul_pos h₁.pos (Nat.two_pow_pos _)) h
  have log : m₁.log2 + (e₁ - g).toNat ≤ m.log2 := by
    refine (Nat.le_log2 (Nat.ne_of_gt positive)).mpr (Nat.le_trans ?_ h)
    rw [Nat.pow_add]
    exact Nat.mul_le_mul_right _ (Nat.log2_self_le (Nat.ne_of_gt h₁.pos))
  have due := h₁.target_eq
  rw [targetExponent_eq] at due ⊢
  omega

/-- A number is rounded as it stands when it has no fewer digits than are due. -/
theorem round_eq (s : Sign) {m : Nat} {g : Int}
    (due : g ≤ Format.binary64.targetExponent (totalExponent m g)) :
    UnpackedFloat.round .binary64 s m g = roundWithAccuracy .binary64 s m g .exact := by
  have stays : (g - Format.binary64.targetExponent (totalExponent m g)).toNat = 0 := by omega
  unfold UnpackedFloat.round decreaseExponent
  dsimp only
  rw [stays, Nat.shiftLeft_zero, Int.natCast_zero, Int.sub_zero]

/-- **Rounding never falls below a canonical value that the exact one is not below.** -/
theorem le_round (s : Sign) {m₁ m : Nat} {e₁ g : Int} (h₁ : Canonical m₁ e₁) (hg : g ≤ e₁)
    (h : m₁ * 2 ^ (e₁ - g).toNat ≤ m) :
    ∃ n f, ∃ canonical : Canonical n f,
      UnpackedFloat.round .binary64 s m g = .finite s n f canonical.pos
        ∧ (e₁ < f ∨ e₁ = f ∧ m₁ ≤ n) := by
  have positive : 0 < m := Nat.lt_of_lt_of_le (Nat.mul_pos h₁.pos (Nat.two_pow_pos _)) h
  have due := le_targetExponent h₁ hg h
  rw [round_eq s (Int.le_trans hg due)]
  have cases := roundWithAccuracy_cases s positive .exact (Int.le_trans hg due)
  generalize Format.binary64.targetExponent (totalExponent m g) = E at due cases
  have whole : e₁ = E → m₁ ≤ m / 2 ^ (E - g).toNat := by
    rintro rfl
    exact (Nat.le_div_iff_mul_le (Nat.two_pow_pos _)).mpr h
  rcases cases with ⟨cut, least, -⟩ | ⟨n, canonical, lower, rounded⟩ | ⟨canonical, rounded⟩
  · have := whole (by have := h₁.least; omega)
    have := h₁.pos
    omega
  · refine ⟨n, E, canonical, rounded, ?_⟩
    rcases Int.lt_or_eq_of_le due with above | same
    · exact .inl above
    · exact .inr ⟨same, Nat.le_trans (whole same) lower⟩
  · exact ⟨2 ^ 52, E + 1, canonical, rounded, .inl (by omega)⟩

end NumericalControl.Binary64
