/-
  NumericalControl/Proofs/Scalar/Order.lean
  =========================================
  **Scalars in order.**  `Scalar` asks for no law.  An `OrderedScalar` has comparisons
  that order its defined values: they are transitive, any two defined values compare, and
  an undefined value compares with nothing.

  Growing a range by `Scalar.min` and `Scalar.max` drops undefined values.  What is left is
  a range that spans the values it was grown by: its ends are among them, and every defined
  one lies between the ends (`Spans`).  So the range fits between two bounds exactly when
  some of the values is defined and all defined ones lie between the bounds (`Spans.fits_iff`).
  Two ranges that span the same values agree, in whatever order they were grown
  (`Spans.agree`).
-/
import NumericalControl.Scalar

namespace NumericalControl

open Scalar

/-- Comparisons that order the defined values. -/
class OrderedScalar (α : Type) [Scalar α] : Prop where
  le_trans : ∀ {a b c : α}, a ≤ b → b ≤ c → a ≤ c
  le_total : ∀ {a b : α}, ¬IsNaN a → ¬IsNaN b → a ≤ b ∨ b ≤ a
  defined_left : ∀ {a b : α}, a ≤ b → ¬IsNaN a
  defined_right : ∀ {a b : α}, a ≤ b → ¬IsNaN b
  lt_iff : ∀ {a b : α}, a < b ↔ a ≤ b ∧ ¬b ≤ a

/-! ### Ranges that span values -/

/-- The ends are among the values, and every defined value lies between them. -/
structure Spans {α : Type} [Scalar α] (lo hi : α) (values : List α) : Prop where
  lo_mem : lo ∈ values
  hi_mem : hi ∈ values
  between : ∀ v ∈ values, ¬IsNaN v → lo ≤ v ∧ v ≤ hi

variable {α : Type} [Scalar α]

/-- The values are equal, or neither is defined. -/
def Scalar.Agree (a b : α) : Prop := Same a b ∨ IsNaN a ∧ IsNaN b

theorem spans_single (v : α) : Spans v v [v] := by
  refine ⟨List.mem_singleton_self v, List.mem_singleton_self v, ?_⟩
  intro w mem defined
  rw [List.mem_singleton.mp mem] at defined ⊢
  exact ⟨Decidable.not_not.mp defined, Decidable.not_not.mp defined⟩

theorem Scalar.min_eq_or (a b : α) : Scalar.min a b = a ∨ Scalar.min a b = b := by
  unfold Scalar.min
  split
  · exact .inr rfl
  · split
    · exact .inr rfl
    · exact .inl rfl

theorem Scalar.max_eq_or (a b : α) : Scalar.max a b = a ∨ Scalar.max a b = b := by
  unfold Scalar.max
  split
  · exact .inr rfl
  · split
    · exact .inr rfl
    · exact .inl rfl

variable [OrderedScalar α]

open OrderedScalar

/-- The smaller of two values is below each that is defined. -/
theorem Scalar.min_le {a b v : α} (h : a ≤ v ∨ (b ≤ v)) : Scalar.min a b ≤ v := by
  unfold Scalar.min
  split
  · rename_i undefined
    rcases h with h | h
    · exact absurd h (fun h => defined_left h undefined)
    · exact h
  · rename_i defined
    split
    · rename_i below
      rcases h with h | h
      · exact le_trans below h
      · exact h
    · rename_i above
      rcases h with h | h
      · exact h
      · exact le_trans ((le_total defined (defined_left h)).resolve_right above) h

/-- The smaller of two values is under a bound when one of them is. -/
theorem Scalar.min_lt_iff {a b v : α} : Scalar.min a b < v ↔ a < v ∨ b < v := by
  have lt_of_le : ∀ {x y : α}, x ≤ y → y < v → x < v := by
    intro x y le lt
    obtain ⟨below, above⟩ := lt_iff.mp lt
    exact lt_iff.mpr ⟨le_trans le below, fun under => above (le_trans under le)⟩
  have defined : ∀ {x : α}, x < v → ¬IsNaN x := fun lt => defined_left (lt_iff.mp lt).1
  unfold Scalar.min
  split
  · rename_i undefined
    exact ⟨.inr, fun h => h.resolve_left fun lt => defined lt undefined⟩
  · rename_i held
    split
    · rename_i below
      exact ⟨.inr, fun h => h.elim (lt_of_le below) id⟩
    · rename_i above
      exact ⟨.inl, fun h => h.elim id fun lt =>
        lt_of_le ((le_total held (defined lt)).resolve_right above) lt⟩

theorem Scalar.le_max {a b v : α} (h : v ≤ a ∨ v ≤ b) : v ≤ Scalar.max a b := by
  unfold Scalar.max
  split
  · rename_i undefined
    rcases h with h | h
    · exact absurd h (fun h => defined_right h undefined)
    · exact h
  · rename_i defined
    split
    · rename_i above
      rcases h with h | h
      · exact le_trans h above
      · exact h
    · rename_i below
      rcases h with h | h
      · exact h
      · exact le_trans h ((le_total defined (defined_right h)).resolve_left below)

theorem Scalar.clamp_eq_self {lo hi a : α} (above : lo ≤ a) (below : a ≤ hi) :
    Scalar.clamp lo hi a = a := by
  have notUnder : ¬a < lo := fun lt => (lt_iff.mp lt).2 above
  have notOver : ¬hi < a := fun lt => (lt_iff.mp lt).2 below
  rw [clamp, if_neg notUnder, if_neg notOver]

theorem Scalar.le_of_not_lt {a b : α} (ha : ¬IsNaN a) (hb : ¬IsNaN b) (h : ¬a < b) : b ≤ a := by
  rcases le_total hb ha with below | above
  · exact below
  · exact Decidable.byContradiction fun not => h (lt_iff.mpr ⟨above, not⟩)

theorem Scalar.clamp_between {lo hi a : α} (order : lo ≤ hi) (defined : ¬IsNaN a) :
    lo ≤ Scalar.clamp lo hi a ∧ Scalar.clamp lo hi a ≤ hi := by
  have loDefined : ¬IsNaN lo := defined_left order
  have hiDefined : ¬IsNaN hi := defined_right order
  unfold clamp
  split
  · exact ⟨Decidable.not_not.mp loDefined, order⟩
  · rename_i notUnder
    split
    · exact ⟨order, Decidable.not_not.mp hiDefined⟩
    · rename_i notOver
      exact ⟨le_of_not_lt defined loDefined notUnder, le_of_not_lt hiDefined defined notOver⟩

/-- What is not above the lower end is moved to it, or equals it. -/
theorem Scalar.clamp_same_low {lo hi a : α} (order : lo ≤ hi) (below : a ≤ lo) :
    Same (Scalar.clamp lo hi a) lo := by
  have self : lo ≤ lo := Decidable.not_not.mp (defined_left order)
  have notOver : ¬hi < a := fun lt => (lt_iff.mp lt).2 (le_trans below order)
  rw [clamp, if_neg notOver]
  split
  · exact ⟨self, self⟩
  · rename_i notUnder
    exact ⟨below, le_of_not_lt (defined_left below) (defined_left order) notUnder⟩

theorem Scalar.clamp_same_high {lo hi a : α} (order : lo ≤ hi) (above : hi ≤ a) :
    Same (Scalar.clamp lo hi a) hi := by
  have self : hi ≤ hi := Decidable.not_not.mp (defined_right order)
  have notUnder : ¬a < lo := fun lt => (lt_iff.mp lt).2 (le_trans order above)
  rw [clamp, if_neg notUnder]
  split
  · exact ⟨self, self⟩
  · rename_i notOver
    exact ⟨le_of_not_lt (defined_left above) (defined_right above) notOver, above⟩

/-- **A range grown by a value spans that value too.** -/
theorem Spans.grow {lo hi : α} {values : List α} (h : Spans lo hi values) (w : α) :
    Spans (Scalar.min lo w) (Scalar.max hi w) (values ++ [w]) := by
  have last : w ∈ values ++ [w] := List.mem_append_right values (List.mem_singleton_self w)
  refine ⟨?_, ?_, ?_⟩
  · rcases Scalar.min_eq_or lo w with same | same
    · rw [same]
      exact List.mem_append_left _ h.lo_mem
    · rw [same]
      exact last
  · rcases Scalar.max_eq_or hi w with same | same
    · rw [same]
      exact List.mem_append_left _ h.hi_mem
    · rw [same]
      exact last
  · intro v mem defined
    rcases List.mem_append.mp mem with mem | mem
    · obtain ⟨above, below⟩ := h.between v mem defined
      exact ⟨Scalar.min_le (.inl above), Scalar.le_max (.inl below)⟩
    · rw [List.mem_singleton.mp mem] at defined ⊢
      have self : w ≤ w := Decidable.not_not.mp defined
      exact ⟨Scalar.min_le (.inr self), Scalar.le_max (.inr self)⟩

/-- A range grown by both ends of another spans what either spans. -/
theorem Spans.union {lo hi lo' hi' : α} {values others : List α} (h : Spans lo hi values)
    (h' : Spans lo' hi' others) :
    Spans (Scalar.min (Scalar.min lo lo') hi') (Scalar.max (Scalar.max hi lo') hi')
      (values ++ others) := by
  have ends := (h.grow lo').grow hi'
  have among : ∀ v ∈ (values ++ [lo']) ++ [hi'], v ∈ values ++ others := by
    intro v mem
    simp only [List.mem_append, List.mem_singleton] at mem ⊢
    rcases mem with (mem | rfl) | rfl
    · exact .inl mem
    · exact .inr h'.lo_mem
    · exact .inr h'.hi_mem
  refine ⟨among _ ends.lo_mem, among _ ends.hi_mem, ?_⟩
  intro v mem defined
  rcases List.mem_append.mp mem with mem | mem
  · obtain ⟨above, below⟩ := h.between v mem defined
    exact ⟨Scalar.min_le (.inl (Scalar.min_le (.inl above))),
      Scalar.le_max (.inl (Scalar.le_max (.inl below)))⟩
  · obtain ⟨above, below⟩ := h'.between v mem defined
    exact ⟨Scalar.min_le (.inl (Scalar.min_le (.inr above))), Scalar.le_max (.inr below)⟩

/-- **The values alone determine the range that spans them.** -/
theorem Spans.agree {lo hi lo' hi' : α} {values others : List α} (h : Spans lo hi values)
    (h' : Spans lo' hi' others) (same : ∀ v, v ∈ values ↔ v ∈ others) :
    Agree lo lo' ∧ Agree hi hi' := by
  have lo_mem := (same lo).mp h.lo_mem
  have hi_mem := (same hi).mp h.hi_mem
  have lo_mem' := (same lo').mpr h'.lo_mem
  have hi_mem' := (same hi').mpr h'.hi_mem
  constructor
  · by_cases defined : IsNaN lo
    · refine .inr ⟨defined, fun self => ?_⟩
      exact defined_left (h.between lo' lo_mem' (not_not_intro self)).1 defined
    · have below := (h'.between lo lo_mem defined).1
      exact .inl ⟨(h.between lo' lo_mem' (defined_left below)).1, below⟩
  · by_cases defined : IsNaN hi
    · refine .inr ⟨defined, fun self => ?_⟩
      exact defined_right (h.between hi' hi_mem' (not_not_intro self)).2 defined
    · have above := (h'.between hi hi_mem defined).2
      exact .inl ⟨above, (h.between hi' hi_mem' (defined_right above)).2⟩

/-- A range has a lower and an upper end as soon as it spans a defined value. -/
theorem Spans.le_iff {lo hi : α} {values : List α} (h : Spans lo hi values) :
    lo ≤ hi ↔ ∃ v ∈ values, ¬IsNaN v := by
  constructor
  · intro le
    exact ⟨lo, h.lo_mem, defined_left le⟩
  · rintro ⟨v, mem, defined⟩
    obtain ⟨above, below⟩ := h.between v mem defined
    exact le_trans above below

/-- **A range fits between bounds when all defined values do, and there are some.** -/
theorem Spans.fits_iff {lo hi : α} {values : List α} (h : Spans lo hi values) (low high : α) :
    ((low ≤ lo ∧ lo ≤ high) ∧ low ≤ hi ∧ hi ≤ high) ↔
      (∃ v ∈ values, ¬IsNaN v) ∧ ∀ v ∈ values, ¬IsNaN v → low ≤ v ∧ v ≤ high := by
  constructor
  · rintro ⟨⟨above, -⟩, -, below⟩
    refine ⟨⟨lo, h.lo_mem, defined_right above⟩, ?_⟩
    intro v mem defined
    obtain ⟨lo_le, le_hi⟩ := h.between v mem defined
    exact ⟨le_trans above lo_le, le_trans le_hi below⟩
  · rintro ⟨⟨v, mem, defined⟩, within⟩
    obtain ⟨lo_le, le_hi⟩ := h.between v mem defined
    exact ⟨within lo h.lo_mem (defined_left lo_le), within hi h.hi_mem (defined_right le_hi)⟩

end NumericalControl
