/-
  NumericalControl/Proofs/Modal/Values.lean
  =========================================
  **The same line with other values.**  A line may say the same in other numbers: its words
  keep their letters, and each value is replaced by one that depends on the letter
  (`Word.revalued`).  What the modes are, whether the line pauses and whether it is passed
  through is left alone as soon as the words with G, M, T and P keep their values.

  The memory in which such a line is read may differ in a mode.  As long as no word of the
  line sets that mode, it comes to the same whether the mode is changed before the first two
  readings or after them (`State.applyModes_setting`, `State.foldl_applyRegister_setting`).
-/
import NumericalControl.Proofs.Binary64.Whole
import NumericalControl.Proofs.Modal.Persistence

namespace NumericalControl

variable {α : Type}

/-- The word with the value that a rule gives for its letter and its value. -/
def Word.revalued (f : Char → α → α) (w : Word α) : Word α :=
  { w with value := f w.letter w.value }

/-- The rule leaves the values of some letters as they are. -/
def KeepsValues (f : Char → α → α) (letters : List Char) : Prop :=
  ∀ letter ∈ letters, ∀ value, f letter value = value

theorem KeepsValues.mono {f : Char → α → α} {letters fewer : List Char}
    (keeps : KeepsValues f letters) (sub : fewer ⊆ letters) : KeepsValues f fewer :=
  fun letter mem => keeps letter (sub mem)

namespace Word

variable (f : Char → α → α)

theorem filter_letter_revalued (letter : Char) (words : List (Word α)) :
    (words.map (revalued f)).filter (·.letter == letter) =
      (words.filter (·.letter == letter)).map (revalued f) := List.filter_map

theorem last?_revalued (letter : Char) (words : List (Word α)) :
    last? letter (words.map (revalued f)) = (last? letter words).map (f letter) := by
  rw [last?, last?, filter_letter_revalued, List.getLast?_map, Option.map_map, Option.map_map]
  refine Option.map_congr fun w last => ?_
  have mem := List.mem_of_getLast? last
  simp only [List.mem_filter, beq_iff_eq] at mem
  rw [Function.comp_apply, Function.comp_apply, ← mem.2]
  rfl

variable {f}

theorem revalued_of_keeps {letters : List Char} (keeps : KeepsValues f letters) {w : Word α}
    (mem : w.letter ∈ letters) : w.revalued f = w := by
  rw [revalued, keeps _ mem]

theorem filter_letter_of_keeps {letters : List Char} (keeps : KeepsValues f letters)
    {letter : Char} (mem : letter ∈ letters) (words : List (Word α)) :
    (words.map (revalued f)).filter (·.letter == letter) =
      words.filter (·.letter == letter) := by
  rw [filter_letter_revalued, List.map_congr_left (g := id), List.map_id]
  intro w own
  simp only [List.mem_filter, beq_iff_eq] at own
  exact revalued_of_keeps keeps (own.2 ▸ mem)

end Word

variable [Scalar α] {f : Char → α → α}

/-! ### Modes, pauses and lines that are passed through -/

section

variable (keeps : KeepsValues f ['G', 'M', 'T'])

include keeps

theorem Role.of_revalued (w : Word α) : Role.of (w.revalued f) = Role.of w := by
  by_cases mode : w.letter ∈ ['G', 'M', 'T']
  · rw [Word.revalued_of_keeps keeps mode]
  · simp only [List.mem_cons, List.not_mem_nil, or_false, not_or] at mode
    simp [Role.of, Word.revalued, mode]

theorem State.applyModes_revalued (s : State α) (words : List (Word α)) :
    s.applyModes (words.map (Word.revalued f)) = s.applyModes words := by
  simp only [State.applyModes, List.foldl_map, Role.of_revalued keeps]

theorem isPassthrough_revalued (words : List (Word α)) :
    isPassthrough (words.map (Word.revalued f)) = isPassthrough words := by
  simp only [isPassthrough, List.any_map, Function.comp_def, Role.of_revalued keeps]

theorem namesMotion_revalued (words : List (Word α)) :
    namesMotion (words.map (Word.revalued f)) = namesMotion words := by
  simp only [namesMotion, List.any_map, Function.comp_def, Role.of_revalued keeps]

theorem asksForDwell_revalued (words : List (Word α)) :
    asksForDwell (words.map (Word.revalued f)) = asksForDwell words := by
  simp only [asksForDwell, List.any_map, Function.comp_def, Role.of_revalued keeps]

end

theorem dwellTime?_revalued (keeps : KeepsValues f ['P']) (words : List (Word α)) :
    dwellTime? (words.map (Word.revalued f)) = dwellTime? words := by
  have swap : ∀ words : List (Word α), dwellTime? words =
      ((words.filter (·.letter == 'P')).filter fun w => decide ((0.0 : α) ≤ w.value)).getLast?.map
        Word.value := by
    intro words
    simp only [dwellTime?, Word.last?, List.filter_filter, Bool.and_comm]
  rw [swap, swap, Word.filter_letter_of_keeps keeps (List.mem_singleton_self 'P')]

theorem State.applyRegister_revalued {w : Word α}
    (kept : w.letter ∈ ['F', 'S', 'H', 'D'] → w.revalued f = w) (scale : α) (s : State α) :
    s.applyRegister scale (w.revalued f) = s.applyRegister scale w := by
  by_cases register : w.letter ∈ ['F', 'S', 'H', 'D']
  · rw [kept register]
  · simp only [List.mem_cons, List.not_mem_nil, or_false, not_or] at register
    simp [State.applyRegister, Word.revalued, register]

theorem State.motionLine_revalued (keeps : KeepsValues f ['G', 'M', 'T']) (s : State α)
    (request : Request α) (axes : AxisWords α) (words : List (Word α)) :
    s.motionLine request axes (words.map (Word.revalued f)) = s.motionLine request axes words :=
  State.motionLine_congr (isPassthrough_revalued keeps words) (namesMotion_revalued keeps words)
    s request axes

theorem State.read_revalued (keeps : KeepsValues f ['G', 'M', 'T', 'F', 'S', 'H', 'D'])
    (s : State α) (words : List (Word α)) :
    s.read (words.map (Word.revalued f)) = s.read words := by
  have registers : ∀ (t : State α) (scale : α) (w : Word α),
      t.applyRegister scale (w.revalued f) = t.applyRegister scale w := fun t scale w =>
    State.applyRegister_revalued (fun register =>
      Word.revalued_of_keeps keeps (List.subset_append_right ['G', 'M', 'T'] _ register)) scale t
  rw [State.read, State.read, State.applyModes_revalued (keeps.mono (by simp))]
  simp only [List.foldl_map, registers]

theorem State.asked_revalued (keeps : KeepsValues f ['G', 'M', 'T', 'P']) (s : State α)
    (words : List (Word α)) :
    s.asked (words.map (Word.revalued f)) =
      { s.asked words with
        arc := .ofWords (s.applyModes words).units.scale (words.map (Word.revalued f)) } := by
  have modes : KeepsValues f ['G', 'M', 'T'] := keeps.mono (by simp)
  rw [State.asked, State.asked, State.applyModes_revalued modes, asksForDwell_revalued modes,
    dwellTime?_revalued (keeps.mono (by simp))]

theorem State.moved_revalued (keeps : KeepsValues f ['G', 'M', 'T', 'P', 'F', 'S', 'H', 'D'])
    (s : State α) (words : List (Word α)) :
    let scale : α := (s.applyModes words).units.scale
    s.moved (words.map (Word.revalued f)) =
      (s.read words).motionLine
        { s.asked words with arc := .ofWords scale (words.map (Word.revalued f)) }
        (.ofWords scale (words.map (Word.revalued f))) words := by
  intro scale
  have modes : KeepsValues f ['G', 'M', 'T'] := keeps.mono (by simp)
  rw [State.moved, State.read_revalued (keeps.mono (by simp)),
    State.asked_revalued (keeps.mono (by simp)), State.applyModes_revalued modes,
    State.motionLine_revalued modes]

/-! ### A mode that the line does not set -/

section

omit [Scalar α]

theorem Setting.endSeries_apply {setting : Setting} (other : setting.group ≠ .motion)
    (s : State α) : (setting.apply s).endSeries = setting.apply s.endSeries := by
  have motion : (setting.apply s).motion = s.motion := by
    cases setting <;> first | rfl | exact absurd rfl other
  by_cases drilling : s.motion = some .drill
  · rw [State.endSeries, if_pos (motion.trans drilling), State.endSeries, if_pos drilling]
  · rw [State.endSeries, motion, if_neg drilling, State.endSeries, if_neg drilling]
    cases setting <;> first | rfl | exact absurd rfl other

theorem Setting.units_apply {setting : Setting} (other : setting.group ≠ .units)
    (s : State α) : (setting.apply s).units = s.units := by
  cases setting <;> first | rfl | exact absurd rfl other

theorem Role.apply_setting {role : Role} {setting : Setting}
    (other : role.group? ≠ some setting.group) (s : State α) :
    role.apply (setting.apply s) = setting.apply (role.apply s) := by
  cases role with
  | sets own => exact Setting.apply_comm (fun same => other (congrArg some same.symm)) s
  | tool n => cases setting <;> rfl
  | _ => rfl

end

/-- **A mode that no word of a line sets may be changed before its modes are read or after
    it.** -/
theorem State.applyModes_setting {setting : Setting} (notMotion : setting.group ≠ .motion)
    {words : List (Word α)} (unset : ∀ w ∈ words, w.sets setting.group = false) (s : State α) :
    (setting.apply s).applyModes words = setting.apply (s.applyModes words) := by
  rw [State.applyModes, State.applyModes, ← Setting.endSeries_apply notMotion]
  congr 1
  induction words generalizing s with
  | nil => rfl
  | cons w rest ih =>
    have other : (Role.of w).group? ≠ some setting.group := by
      rw [Ne, Word.group_eq_some_iff, unset w List.mem_cons_self]
      exact Bool.false_ne_true
    rw [List.foldl_cons, List.foldl_cons, Role.apply_setting other,
      ih fun v mem => unset v (List.mem_cons_of_mem _ mem)]

theorem State.applyRegister_setting (setting : Setting) (scale : α) (s : State α) (w : Word α) :
    (setting.apply s).applyRegister scale w = setting.apply (s.applyRegister scale w) := by
  rw [State.applyRegister_eq, State.applyRegister_eq]
  cases setting <;> rfl

theorem State.foldl_applyRegister_setting (setting : Setting) (scale : α)
    (words : List (Word α)) (s : State α) :
    words.foldl (State.applyRegister scale) (setting.apply s) =
      setting.apply (words.foldl (State.applyRegister scale) s) :=
  List.foldl_hom setting.apply (fun s w => State.applyRegister_setting setting scale s w)

/-- Only the unit tells in the first two readings, and only in the second. -/
theorem State.read_setting {setting : Setting} (notMotion : setting.group ≠ .motion)
    (notUnits : setting.group ≠ .units) {words : List (Word α)}
    (unset : ∀ w ∈ words, w.sets setting.group = false) (s : State α) :
    (setting.apply s).read words = setting.apply (s.read words) := by
  rw [State.read, State.applyModes_setting notMotion unset, Setting.units_apply notUnits]
  exact State.foldl_applyRegister_setting setting _ words _

theorem State.asked_setting {setting : Setting} (notMotion : setting.group ≠ .motion)
    (notUnits : setting.group ≠ .units) {words : List (Word α)}
    (unset : ∀ w ∈ words, w.sets setting.group = false) (s : State α) :
    (setting.apply s).asked words = s.asked words := by
  rw [State.asked, State.applyModes_setting notMotion unset, Setting.units_apply notUnits,
    Setting.position_apply]
  rfl

theorem State.setting_read {words : List (Word α)} {g : Group}
    (unset : ∀ w ∈ words, w.sets g = false) (s : State α) :
    (s.read words).setting g = s.setting g := by
  by_contra changed
  obtain ⟨w, mem, sets⟩ := State.setting_read_ne changed
  rw [unset w mem] at sets
  cases sets

theorem State.setting_applyModes {words : List (Word α)} {g : Group}
    (unset : ∀ w ∈ words, w.sets g = false) (s : State α) :
    (s.applyModes words).setting g = s.setting g :=
  (State.setting_foldl_applyRegister _ words _ g).symm.trans (State.setting_read unset s)

/-! ### Millimetres

Lengths in millimetres are read as they are written, for a product with one is exact. -/

theorem ArcWords.ofWords_millimetres (words : List (Word Float)) :
    ofWords Units.millimetres.scale words =
      ⟨Word.last? 'I' words, Word.last? 'J' words, Word.last? 'K' words, Word.last? 'R' words⟩ := by
  simp only [ofWords, Units.scale, Binary64.mul_one, Option.map_id']

theorem AxisWords.ofWords_millimetres (words : List (Word Float)) (axis : Axis) :
    ofWords Units.millimetres.scale words axis = Word.last? axis.letter words := by
  simp only [ofWords_eq, Units.scale, Binary64.mul_one, ite_self, Option.map_id']

end NumericalControl
