/-
  NumericalControl/Proofs/Binary64/Order.lean
  ===========================================
  **Binary64 is in order.**  Every defined value has a rank: negative infinity first, then
  the negative values, the zeros, the positive values, and infinity.  Within a sign the
  exponents decide, and then the significands.  Comparing two values is comparing their
  ranks (`compare_eq_rank`), and ranks are in a linear order; so `Float` is an
  `OrderedScalar`, with the value that is no number as its only undefined one.
-/
import Mathlib.Data.Int.Order.Basic
import Mathlib.Data.Prod.Lex
import NumericalControl.Proofs.Scalar.Order
import NumericalControl.Scalar.Binary64

namespace NumericalControl.Binary64

open Float.Model Float.Model.UnpackedFloat

/-! ### Ranks -/

abbrev Rank : Type := Int ×ₗ Int ×ₗ Int

/-- The place of a value in the order, if it is defined. -/
def rank? : UnpackedFloat → Option Rank
  | .notANumber => none
  | .infinity .negative => some (toLex (-2, toLex (0, 0)))
  | .finite .negative m e _ => some (toLex (-1, toLex (-e, -(m : Int))))
  | .zero _ => some (toLex (0, toLex (0, 0)))
  | .finite .positive m e _ => some (toLex (1, toLex (e, (m : Int))))
  | .infinity .positive => some (toLex (2, toLex (0, 0)))

theorem compare_cast (m n : Nat) : compare (m : Int) (n : Int) = compare m n := by
  rcases lt_trichotomy m n with h | rfl | h
  · rw [compare_lt_iff_lt.mpr h, compare_lt_iff_lt.mpr (Int.ofNat_lt.mpr h)]
  · rw [compare_eq_iff_eq.mpr rfl, compare_eq_iff_eq.mpr rfl]
  · rw [compare_gt_iff_gt.mpr h, compare_gt_iff_gt.mpr (Int.ofNat_lt.mpr h)]

theorem compare_neg (a b : Int) : compare (-a) (-b) = (compare a b).swap := by
  rcases lt_trichotomy a b with h | rfl | h
  · rw [compare_lt_iff_lt.mpr h, compare_gt_iff_gt.mpr (Int.neg_lt_neg h)]
    rfl
  · rw [compare_eq_iff_eq.mpr rfl, compare_eq_iff_eq.mpr rfl]
    rfl
  · rw [compare_gt_iff_gt.mpr h, compare_lt_iff_lt.mpr (Int.neg_lt_neg h)]
    rfl

/-- **Values are compared by rank.** -/
theorem compare_eq_rank (u v : UnpackedFloat) :
    u.compare v = (rank? u).bind fun p => (rank? v).map fun q => compare p q := by
  cases u with
  | notANumber => rfl
  | infinity s =>
    cases v with
    | infinity t => cases s <;> cases t <;> rfl
    | notANumber => cases s <;> rfl
    | zero t => cases s <;> cases t <;> rfl
    | finite t n f _ => cases s <;> cases t <;> rfl
  | zero s =>
    cases v with
    | infinity t => cases t <;> rfl
    | notANumber => rfl
    | zero t => rfl
    | finite t n f _ => cases t <;> rfl
  | finite s m e _ =>
    cases v with
    | infinity t => cases s <;> cases t <;> rfl
    | notANumber => cases s <;> rfl
    | zero t => cases s <;> rfl
    | finite t n f _ =>
      cases s with
      | negative =>
        cases t with
        | negative =>
          -- the sizes are compared the other way round
          have swapped : compare (toLex (-1, toLex (-e, -(m : Int))) : Rank)
              (toLex (-1, toLex (-f, -(n : Int)))) =
              (compare (-e) (-f)).then (compare (-(m : Int)) (-(n : Int))) := rfl
          rw [compare_neg, compare_neg, compare_cast, ← Ordering.swap_then] at swapped
          exact congrArg some swapped.symm
        | positive => rfl
      | positive =>
        cases t with
        | negative => rfl
        | positive =>
          have straight : compare (toLex (1, toLex (e, (m : Int))) : Rank)
              (toLex (1, toLex (f, (n : Int)))) =
              (compare e f).then (compare (m : Int) (n : Int)) := rfl
          rw [compare_cast] at straight
          exact congrArg some straight.symm

theorem unpacked_le_iff {u v : UnpackedFloat} :
    u.le v = true ↔ ∃ p q, rank? u = some p ∧ rank? v = some q ∧ p ≤ q := by
  unfold UnpackedFloat.le
  rw [compare_eq_rank]
  cases rank? u <;> cases rank? v <;> simp [Ordering.isLE_iff_ne_gt, compare_gt_iff_gt]

theorem unpacked_lt_iff {u v : UnpackedFloat} :
    u.lt v = true ↔ ∃ p q, rank? u = some p ∧ rank? v = some q ∧ p < q := by
  unfold UnpackedFloat.lt
  rw [compare_eq_rank]
  cases rank? u <;> cases rank? v <;> simp [compare_lt_iff_lt]

/-! ### Floats -/

theorem le_iff_unpack {a b : Float} : a ≤ b ↔ a.toModel.unpack.le b.toModel.unpack = true :=
  decide_eq_true_iff

theorem lt_iff_unpack {a b : Float} : a < b ↔ a.toModel.unpack.lt b.toModel.unpack = true :=
  decide_eq_true_iff

def rankOf? (a : Float) : Option Rank := rank? a.toModel.unpack

theorem le_iff_rank {a b : Float} :
    a ≤ b ↔ ∃ p q, rankOf? a = some p ∧ rankOf? b = some q ∧ p ≤ q :=
  le_iff_unpack.trans unpacked_le_iff

theorem lt_iff_rank {a b : Float} :
    a < b ↔ ∃ p q, rankOf? a = some p ∧ rankOf? b = some q ∧ p < q :=
  lt_iff_unpack.trans unpacked_lt_iff

theorem exists_rank_iff {a : Float} : ¬Scalar.IsNaN a ↔ ∃ p, rankOf? a = some p := by
  rw [Scalar.IsNaN, not_not]
  constructor
  · intro self
    obtain ⟨p, -, hp, -⟩ := le_iff_rank.mp self
    exact ⟨p, hp⟩
  · rintro ⟨p, hp⟩
    exact le_iff_rank.mpr ⟨p, p, hp, hp, le_rfl⟩

instance : OrderedScalar Float where
  le_trans := by
    intro a b c hab hbc
    obtain ⟨p, q, hp, hq, hpq⟩ := le_iff_rank.mp hab
    obtain ⟨q', r, hq', hr, hqr⟩ := le_iff_rank.mp hbc
    obtain rfl : q = q' := Option.some.inj (hq.symm.trans hq')
    exact le_iff_rank.mpr ⟨p, r, hp, hr, hpq.trans hqr⟩
  le_total := by
    intro a b ha hb
    obtain ⟨p, hp⟩ := exists_rank_iff.mp ha
    obtain ⟨q, hq⟩ := exists_rank_iff.mp hb
    rcases le_total p q with h | h
    · exact .inl (le_iff_rank.mpr ⟨p, q, hp, hq, h⟩)
    · exact .inr (le_iff_rank.mpr ⟨q, p, hq, hp, h⟩)
  defined_left := by
    intro a b hab
    obtain ⟨p, -, hp, -⟩ := le_iff_rank.mp hab
    exact exists_rank_iff.mpr ⟨p, hp⟩
  defined_right := by
    intro a b hab
    obtain ⟨-, q, -, hq, -⟩ := le_iff_rank.mp hab
    exact exists_rank_iff.mpr ⟨q, hq⟩
  lt_iff := by
    intro a b
    constructor
    · intro hab
      obtain ⟨p, q, hp, hq, hpq⟩ := lt_iff_rank.mp hab
      refine ⟨le_iff_rank.mpr ⟨p, q, hp, hq, hpq.le⟩, ?_⟩
      intro hba
      obtain ⟨q', p', hq', hp', hqp⟩ := le_iff_rank.mp hba
      obtain rfl : p = p' := Option.some.inj (hp.symm.trans hp')
      obtain rfl : q = q' := Option.some.inj (hq.symm.trans hq')
      exact hpq.not_ge hqp
    · rintro ⟨hab, hba⟩
      obtain ⟨p, q, hp, hq, -⟩ := le_iff_rank.mp hab
      refine lt_iff_rank.mpr ⟨p, q, hp, hq, lt_of_not_ge fun hqp => ?_⟩
      exact hba (le_iff_rank.mpr ⟨q, p, hq, hp, hqp⟩)

end NumericalControl.Binary64
