/-
  NumericalControl/Proofs/Modal/Order.lean
  ========================================
  **The order of the words on a line.**  It counts among the words of one group of modes
  and among the words of one letter (`Word.class?`), and nowhere else: two lines with the
  same words, in the same order within each class, come to the same (`State.apply_rearranged`).
  A unit, a plane or an unknown G code therefore acts on the whole line wherever it stands.

  Lines that agree within each class lead to one another by swaps of neighbours of
  different classes (`Word.Rearranged.reorder`): the first word of the one line has no word
  of its class before it in the other, and can be moved to the front there.  So each of the
  readings needs a look at two neighbours only.
-/
import Mathlib.Data.List.Basic
import NumericalControl.Proofs.Modal.Line
import NumericalControl.Proofs.Modal.Mode
import NumericalControl.Scalar.Binary64
import NumericalControl.Word.Line

namespace NumericalControl

variable {α : Type} [Scalar α]

/-! ### Classes of words -/

/-- The words of one group of modes, or of one letter. -/
inductive WordClass where
  | group (g : Group)
  | letter (c : Char)
  deriving DecidableEq, Repr

namespace Word

/-- The class of a word. The G and M words outside of the groups have none. -/
def class? (w : Word α) : Option WordClass :=
  if w.letter = 'G' ∨ w.letter = 'M' then (Role.of w).group?.map .group
  else some (.letter w.letter)

/-- The words of a class, in their order. -/
def ofClass (c : WordClass) (words : List (Word α)) : List (Word α) :=
  words.filter fun w => w.class? == some c

/-- Words of different classes, or without one. -/
def Independent (v w : Word α) : Prop := ∀ c, v.class? = some c → w.class? ≠ some c

/-- The same words, in the same order within each class. -/
structure Rearranged (words other : List (Word α)) : Prop where
  perm : words.Perm other
  order : ∀ c, ofClass c words = ofClass c other

theorem class?_of_group {w : Word α} {g : Group} (h : (Role.of w).group? = some g) :
    w.class? = some (.group g) := by
  have letter := group_eq_some_iff.mp h
  simp only [sets, Bool.and_eq_true, beq_iff_eq] at letter
  have mode : w.letter = 'G' ∨ w.letter = 'M' := letter.1 ▸ g.letter_eq_or
  simp [class?, mode, h]

theorem class?_of_letter {w : Word α} (notG : w.letter ≠ 'G') (notM : w.letter ≠ 'M') :
    w.class? = some (.letter w.letter) := by
  simp [class?, notG, notM]

theorem Independent.symm {v w : Word α} (h : Independent v w) : Independent w v :=
  fun c hw hv => h c hv hw

theorem Independent.group_ne {v w : Word α} (h : Independent v w) {g : Group}
    (hv : (Role.of v).group? = some g) : (Role.of w).group? ≠ some g :=
  fun hw => h _ (class?_of_group hv) (class?_of_group hw)

theorem Independent.letter_ne {v w : Word α} (h : Independent v w) (notG : v.letter ≠ 'G')
    (notM : v.letter ≠ 'M') : v.letter ≠ w.letter := by
  intro same
  refine h _ (class?_of_letter notG notM) ?_
  rw [same] at notG notM ⊢
  exact class?_of_letter notG notM

/-! ### Swaps of neighbours -/

/-- One line leads to the other by swaps of independent neighbours. -/
inductive Reorder : List (Word α) → List (Word α) → Prop
  | refl (words : List (Word α)) : Reorder words words
  | cons (w : Word α) {words other : List (Word α)} (h : Reorder words other) :
      Reorder (w :: words) (w :: other)
  | swap {v w : Word α} (h : Independent v w) (rest : List (Word α)) :
      Reorder (v :: w :: rest) (w :: v :: rest)
  | trans {words mid other : List (Word α)} (h₁ : Reorder words mid) (h₂ : Reorder mid other) :
      Reorder words other

theorem Reorder.behind {w : Word α} {front : List (Word α)}
    (h : ∀ v ∈ front, Independent w v) (rest : List (Word α)) :
    Reorder (w :: (front ++ rest)) (front ++ w :: rest) := by
  induction front with
  | nil => exact .refl _
  | cons v front ih =>
    have first : Independent w v := h v List.mem_cons_self
    have others : ∀ u ∈ front, Independent w u := fun u mem => h u (List.mem_cons_of_mem _ mem)
    exact (Reorder.swap first (front ++ rest)).trans (.cons v (ih others))

namespace Rearranged

/-- The first word of a line stands in the other behind independent words only. -/
theorem exists_split {w : Word α} {rest other : List (Word α)}
    (h : Rearranged (w :: rest) other) :
    ∃ front back, other = front ++ w :: back ∧ ∀ v ∈ front, Independent w v := by
  rcases hc : w.class? with _ | c
  -- a word without a class is independent of all, so any place of it will do
  · obtain ⟨front, back, split⟩ := List.mem_iff_append.mp (h.perm.mem_iff.mp List.mem_cons_self)
    refine ⟨front, back, split, ?_⟩
    intro v _ c hw
    simp [hc] at hw
  -- otherwise it is the first of its class, there as here
  · have first : ofClass c other = w :: ofClass c rest := by
      rw [← h.order c]
      simp [ofClass, hc]
    obtain ⟨front, back, split, before, -⟩ := List.filter_eq_cons_iff.mp first
    refine ⟨front, back, split, ?_⟩
    intro v mem d hw hv
    obtain rfl : c = d := Option.some.inj (hc.symm.trans hw)
    exact before v mem (by simp [hv])

theorem of_cons {w : Word α} {rest front back : List (Word α)}
    (h : Rearranged (w :: rest) (front ++ w :: back)) (before : ∀ v ∈ front, Independent w v) :
    Rearranged rest (front ++ back) := by
  refine ⟨(h.perm.trans List.perm_middle).cons_inv, ?_⟩
  intro c
  have order := h.order c
  by_cases hw : w.class? = some c
  · have classless : ofClass c front = [] := by
      rw [ofClass, List.filter_eq_nil_iff]
      intro v mem hv
      exact before v mem c hw (by simpa using hv)
    simp only [ofClass, List.filter_append, List.filter_cons, hw, beq_self_eq_true,
      if_true] at order classless ⊢
    rw [classless, List.nil_append] at order ⊢
    exact (List.cons.inj order).2
  · simpa [ofClass, List.filter_append, List.filter_cons, hw] using order

/-- **Lines that agree within each class are a few swaps apart.** -/
theorem reorder {words other : List (Word α)} (h : Rearranged words other) :
    Reorder words other := by
  induction words generalizing other with
  | nil =>
    rw [List.nil_perm.mp h.perm]
    exact .refl _
  | cons w rest ih =>
    obtain ⟨front, back, rfl, before⟩ := h.exists_split
    exact (Reorder.cons w (ih (h.of_cons before))).trans (.behind before back)

/-- It is enough to look at the classes that occur. -/
theorem of_occurring {words other : List (Word α)} (perm : words.Perm other)
    (order : ∀ c ∈ words.filterMap class?, ofClass c words = ofClass c other) :
    Rearranged words other := by
  refine ⟨perm, ?_⟩
  intro c
  by_cases occurs : c ∈ words.filterMap class?
  · exact order c occurs
  · have absent : ∀ w ∈ words, ¬(w.class? == some c) = true := by
      intro w mem hw
      exact occurs (List.mem_filterMap.mpr ⟨w, mem, by simpa using hw⟩)
    rw [ofClass, ofClass, List.filter_eq_nil_iff.mpr absent, List.filter_eq_nil_iff.mpr]
    exact fun w mem => absent w (perm.mem_iff.mpr mem)

theorem last?_eq {words other : List (Word α)} (h : Rearranged words other) (letter : Char)
    (notG : letter ≠ 'G') (notM : letter ≠ 'M') :
    Word.last? letter words = Word.last? letter other := by
  have class_iff : ∀ w : Word α,
      (w.letter == letter) = (w.class? == some (.letter letter)) := by
    intro w
    by_cases same : w.letter = letter
    · simp [same, class?, notG, notM]
    · by_cases mode : w.letter = 'G' ∨ w.letter = 'M' <;> simp [class?, mode, same]
  have order := h.order (.letter letter)
  simp only [last?, class_iff]
  rw [← ofClass, order, ofClass]

end Rearranged

theorem Reorder.foldl_eq {σ : Type} {f : σ → Word α → σ}
    (comm : ∀ {v w : Word α}, Independent v w → ∀ s, f (f s v) w = f (f s w) v)
    {words other : List (Word α)} (h : Reorder words other) (s : σ) :
    words.foldl f s = other.foldl f s := by
  induction h generalizing s with
  | refl => rfl
  | cons w _ ih => exact ih (f s w)
  | swap apart rest => simp only [List.foldl_cons, comm apart]
  | trans _ _ ih₁ ih₂ => exact (ih₁ s).trans (ih₂ s)

/-! ### The first reading -/

theorem Independent.role_apply {v w : Word α} (h : Independent v w) (s : State α) :
    (Role.of w).apply ((Role.of v).apply s) = (Role.of v).apply ((Role.of w).apply s) := by
  rcases hv : Role.of v with first | n | _ | _ | _ | _ | _
  case sets =>
    rcases hw : Role.of w with second | _ | _ | _ | _ | _ | _
    case sets =>
      have apart : first.group ≠ second.group := fun same =>
        h.group_ne (g := first.group) (by simp [hv, Role.group?]) (by simp [hw, Role.group?, same])
      exact Setting.apply_comm apart s
    case tool => cases first <;> rfl
    all_goals rfl
  case tool =>
    rcases hw : Role.of w with second | m | _ | _ | _ | _ | _
    case sets => cases second <;> rfl
    case tool =>
      have letter := (of_role_tool hv).1
      exact absurd (letter.trans (of_role_tool hw).1.symm)
        (h.letter_ne (by simp [letter]) (by simp [letter]))
    all_goals rfl
  all_goals rfl

end Word

/-- What the first reading finds about a word, when words of the groups `seen` came
    before. -/
def modeFinding? (seen : List Group) (w : Word α) : Option (Finding α) :=
  match Role.of w with
  | .sets setting => if setting.group ∈ seen then some (.conflict w) else none
  | .passthrough => some (.unsupportedGCode w)
  | .unknownMCode => some (.unsupportedMCode w)
  | .invalid => some (.invalidValue w)
  | _ => none

theorem modeFinding?_congr {seen other : List Group} {w : Word α}
    (same : ∀ g, (Role.of w).group? = some g → (g ∈ seen ↔ g ∈ other)) :
    modeFinding? seen w = modeFinding? other w := by
  simp only [modeFinding?]
  split
  · rename_i setting role
    simp only [same setting.group (by simp [role, Role.group?])]
  all_goals rfl

theorem modeFindings_congr {seen other : List Group} (same : ∀ g, g ∈ seen ↔ g ∈ other)
    (words : List (Word α)) : modeFindings seen words = modeFindings other words := by
  induction words generalizing seen other with
  | nil => rfl
  | cons w rest ih =>
    have longer : ∀ g g', g' ∈ g :: seen ↔ g' ∈ g :: other := by
      intro g g'
      simp [same]
    simp only [modeFindings, same, ih same, ih (longer _)]

theorem modeFindings_cons (seen : List Group) (w : Word α) (rest : List (Word α)) :
    modeFindings seen (w :: rest) = (modeFinding? seen w).toList ++
      modeFindings ((Role.of w).group?.toList ++ seen) rest := by
  rcases role : Role.of w with setting | _ | _ | _ | _ | _ | _
  case sets =>
    simp only [modeFindings, modeFinding?, role, Role.group?, Option.toList_some,
      List.singleton_append]
    by_cases repeated : setting.group ∈ seen
    -- a group that is repeated is added once more, which changes no membership
    · have known : ∀ g, g ∈ setting.group :: seen ↔ g ∈ seen := by
        intro g
        simp only [List.mem_cons, or_iff_right_iff_imp]
        rintro rfl
        exact repeated
      simp [repeated, modeFindings_congr known]
    · simp [repeated]
  all_goals simp [modeFindings, modeFinding?, role, Role.group?]

/-- **Swaps of neighbours only reorder the findings.** -/
theorem Word.Reorder.modeFindings_perm {words other : List (Word α)} (h : Reorder words other)
    (seen : List Group) : (modeFindings seen words).Perm (modeFindings seen other) := by
  induction h generalizing seen with
  | refl => exact .refl _
  | cons w _ ih =>
    rw [modeFindings_cons, modeFindings_cons]
    exact (ih _).append_left _
  | @swap v w apart rest =>
    have first : modeFinding? ((Role.of w).group?.toList ++ seen) v = modeFinding? seen v := by
      refine modeFinding?_congr fun g hv => ?_
      simp [apart.group_ne hv]
    have second : modeFinding? ((Role.of v).group?.toList ++ seen) w = modeFinding? seen w := by
      refine modeFinding?_congr fun g hw => ?_
      simp [apart.symm.group_ne hw]
    have same : ∀ g, g ∈ (Role.of w).group?.toList ++ ((Role.of v).group?.toList ++ seen) ↔
        g ∈ (Role.of v).group?.toList ++ ((Role.of w).group?.toList ++ seen) := by
      intro g
      simp [or_left_comm]
    have behind := modeFindings_congr same rest
    simp only [modeFindings_cons, first, second, behind]
    exact List.perm_append_comm_assoc _ _ _
  | trans _ _ ih₁ ih₂ => exact (ih₁ seen).trans (ih₂ seen)

/-! ### The second reading -/

theorem State.applyRegister_of_mode (scale : α) (s : State α) {w : Word α}
    (h : w.letter = 'G' ∨ w.letter = 'M') : s.applyRegister scale w = s := by
  rcases h with letter | letter <;> simp [State.applyRegister_eq, letter]

theorem Word.Independent.applyRegister_comm {v w : Word α} (h : Independent v w) (scale : α)
    (s : State α) :
    (s.applyRegister scale v).applyRegister scale w =
      (s.applyRegister scale w).applyRegister scale v := by
  by_cases mode : v.letter = 'G' ∨ v.letter = 'M'
  · simp only [State.applyRegister_of_mode scale _ mode]
  · rw [not_or] at mode
    exact State.applyRegister_comm scale (h.letter_ne mode.1 mode.2) s

/-! ### Whole lines -/

namespace Word.Rearranged

variable {words other : List (Word α)}

theorem applyModes_eq (h : Rearranged words other) (s : State α) :
    s.applyModes words = s.applyModes other := by
  have modes := h.reorder.foldl_eq (f := fun s w => (Role.of w).apply s) Independent.role_apply s
  simp only [State.applyModes, modes]

theorem arcWords_eq (h : Rearranged words other) (scale : α) :
    ArcWords.ofWords scale words = ArcWords.ofWords scale other := by
  simp only [ArcWords.ofWords, h.last?_eq 'I' (by decide) (by decide),
    h.last?_eq 'J' (by decide) (by decide), h.last?_eq 'K' (by decide) (by decide),
    h.last?_eq 'R' (by decide) (by decide)]

theorem axisWords_eq (h : Rearranged words other) (scale : α) :
    AxisWords.ofWords scale words = AxisWords.ofWords scale other := by
  funext axis
  have letters : axis.letter ≠ 'G' ∧ axis.letter ≠ 'M' := by cases axis <;> decide
  simp only [AxisWords.ofWords_eq, h.last?_eq axis.letter letters.1 letters.2]

theorem filter (h : Rearranged words other) (p : Word α → Bool) :
    Rearranged (words.filter p) (other.filter p) := by
  refine ⟨h.perm.filter p, ?_⟩
  intro c
  have order := congrArg (List.filter p) (h.order c)
  simpa only [ofClass, List.filter_filter, Bool.and_comm] using order

theorem dwellTime?_eq (h : Rearranged words other) : dwellTime? words = dwellTime? other :=
  (h.filter _).last?_eq 'P' (by decide) (by decide)

end Word.Rearranged

/-- **The order of words counts only within a class**: lines with the same words, in the
    same order within each class, leave the same memory, ask for the same, and have the
    same findings, each as often. -/
theorem State.apply_rearranged (old : State α) {words other : List (Word α)}
    (h : Word.Rearranged words other) :
    (old.apply words).state = (old.apply other).state ∧
      (old.apply words).request = (old.apply other).request ∧
      (old.apply words).findings.Perm (old.apply other).findings := by
  have passthrough : isPassthrough words = isPassthrough other := h.perm.any_eq
  have motion : namesMotion words = namesMotion other := h.perm.any_eq
  have dwell : asksForDwell words = asksForDwell other := h.perm.any_eq
  have registers : ∀ (scale : α) (s : State α),
      words.foldl (State.applyRegister scale) s = other.foldl (State.applyRegister scale) s :=
    fun scale => h.reorder.foldl_eq fun apart => apart.applyRegister_comm scale
  simp only [State.apply, h.applyModes_eq, registers, h.arcWords_eq, h.axisWords_eq,
    h.dwellTime?_eq, dwell, State.motionLine_congr passthrough motion, true_and]
  have modes := h.reorder.modeFindings_perm []
  have second : (words.filterMap registerFinding?).Perm (other.filterMap registerFinding?) :=
    h.perm.filterMap _
  exact ((modes.append second).append_right _).append_right _

/-- The unit and the distance mode stand behind the words that they act on. -/
theorem State.apply_rearranged_inches :
    let words : List (Word Float) := (Line.read "G1 X10 G91 F100 G20 X2 M3 Q1").words
    let other : List (Word Float) := (Line.read "Q1 F100 X10 M3 X2 G20 G91 G1").words
    Word.Rearranged words other ∧
      (State.initial.apply words).state = (State.initial.apply other).state ∧
      (State.initial.apply words).request = (State.initial.apply other).request ∧
      (State.initial.apply words).findings.Perm (State.initial.apply other).findings ∧
      (State.initial.apply other).request.target.x = 50.8 := by
  intro words other
  have h : Word.Rearranged words other :=
    .of_occurring (by decide +kernel) (by decide +kernel)
  obtain ⟨state, request, findings⟩ := State.apply_rearranged .initial h
  exact ⟨h, state, request, findings, by decide +kernel⟩

end NumericalControl
