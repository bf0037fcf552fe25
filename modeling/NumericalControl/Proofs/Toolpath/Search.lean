/-
  NumericalControl/Proofs/Toolpath/Search.lean
  ============================================
  **The search finds the place.**  While the candidates are halved, the first of them is a
  place where the test holds, or the start of the array, and behind the last of them the
  test holds nowhere.  For one candidate this says where the first part ends
  (`narrow_spec`), so the places in front of `partitionPoint` are exactly those where the
  test holds (`lt_partitionPoint_iff`).
-/
import NumericalControl.Toolpath.Search

namespace NumericalControl

variable {β : Type} {test : β → Bool} {xs : Array β}

/-- The test holds for a first part of the array and fails for the rest. -/
def Partitioned (test : β → Bool) (xs : Array β) : Prop :=
  ∀ i j, i ≤ j → holdsAt test xs j = true → holdsAt test xs i = true

theorem holdsAt_iff {i : Nat} : holdsAt test xs i = true ↔ ∃ x, xs[i]? = some x ∧ test x = true :=
  Option.any_eq_true ..

theorem narrow_spec (partitioned : Partitioned test xs) (base size : Nat)
    (below : base = 0 ∨ holdsAt test xs base = true)
    (above : ∀ i, base + size ≤ i → ¬holdsAt test xs i = true) :
    (narrow test xs base size = 0 ∨ holdsAt test xs (narrow test xs base size) = true) ∧
      ∀ i, narrow test xs base size < i → ¬holdsAt test xs i = true := by
  fun_induction narrow test xs base size with
  | case1 base size one =>
    refine ⟨below, ?_⟩
    intro i lt
    exact above i (by omega)
  | case2 base size more half ih =>
    by_cases holds : holdsAt test xs (base + half) = true
    · rw [dif_pos holds] at ih
      rw [if_pos holds]
      apply ih (.inr holds)
      intro i le
      exact above i (by omega)
    · rw [dif_neg holds] at ih
      rw [if_neg holds]
      apply ih below
      -- what is dropped lies behind a place where the test fails
      intro i le
      exact fun later => holds (partitioned (base + half) i (by omega) later)

/-- **The places in front of the partition point are those where the test holds.** -/
theorem lt_partitionPoint_iff (partitioned : Partitioned test xs) (i : Nat) :
    i < partitionPoint test xs ↔ holdsAt test xs i = true := by
  have outside : ∀ i, 0 + xs.size ≤ i → ¬holdsAt test xs i = true := by
    intro i le
    rw [Nat.zero_add] at le
    simp [holdsAt, Array.getElem?_eq_none le]
  obtain ⟨below, above⟩ := narrow_spec partitioned 0 xs.size (.inl rfl) outside
  unfold partitionPoint
  generalize narrow test xs 0 xs.size = last at below above ⊢
  by_cases holds : holdsAt test xs last = true
  · rw [if_pos holds, Nat.lt_succ_iff]
    constructor
    · exact fun le => partitioned i last le holds
    · exact fun here => Nat.le_of_not_lt fun lt => above i lt here
  · obtain rfl : last = 0 := below.resolve_right holds
    rw [if_neg holds]
    refine iff_of_false (Nat.not_lt_zero i) ?_
    intro here
    rcases Nat.eq_zero_or_pos i with rfl | lt
    · exact holds here
    · exact above i lt here

/-! ### Numbers that never go down -/

theorem number_le_number {number : β → Nat} {i j : Nat} {x y : β}
    (ascending : xs.toList.Pairwise fun x y => number x ≤ number y) (le : i ≤ j)
    (hx : xs[i]? = some x) (hy : xs[j]? = some y) : number x ≤ number y := by
  rcases Nat.eq_or_lt_of_le le with rfl | lt
  · obtain rfl := Option.some.inj (hx.symm.trans hy)
    exact Nat.le_refl _
  · obtain ⟨_, rfl⟩ := Array.getElem?_eq_some_iff.mp hx
    obtain ⟨_, rfl⟩ := Array.getElem?_eq_some_iff.mp hy
    exact List.pairwise_iff_getElem.mp ascending i j _ _ lt

/-- What is numbered below a bound comes first. -/
theorem partitioned_lt {number : β → Nat}
    (ascending : xs.toList.Pairwise fun x y => number x ≤ number y) (bound : Nat) :
    Partitioned (fun x => decide (number x < bound)) xs := by
  intro i j le holds
  obtain ⟨y, hy, below⟩ := holdsAt_iff.mp holds
  obtain ⟨last, -⟩ := Array.getElem?_eq_some_iff.mp hy
  have hx : xs[i]? = some xs[i] := Array.getElem?_eq_getElem (Nat.lt_of_le_of_lt le last)
  refine holdsAt_iff.mpr ⟨xs[i], hx, decide_eq_true ?_⟩
  exact Nat.lt_of_le_of_lt (number_le_number ascending le hx hy) (of_decide_eq_true below)

end NumericalControl
