/-
  NumericalControl/Proofs/Modal/Mode.lean
  =======================================
  **Modes and registers, word by word.**  A memory holds one mode for each group
  (`State.setting`), and the words that set a group are the G or M words with one of its
  codes (`Word.group_eq_some_iff`).  A word sets the mode of its own group and of no other
  (`Role.setting_apply_of_ne`), so words of different groups may change places
  (`Setting.apply_comm`).

  Beside the modes there are five registers, each with a letter of its own
  (`State.register`).  A word leaves all of them as they are, except the one of its letter,
  and that one too if its value does not suit it.
-/
import NumericalControl.Modal.Request

namespace NumericalControl

variable {α : Type}

/-! ### The words of a group -/

def Group.letter : Group → Char
  | spindle => 'M'
  | _ => 'G'

def Group.codes : Group → List Nat
  | motion => [0, 1, 2, 3, 80, 81]
  | plane => [17, 18, 19]
  | units => [20, 21]
  | cutter => [40, 41, 42]
  | length => [43, 49]
  | workOffset => [54, 55, 56, 57, 58, 59]
  | distance => [90, 91]
  | retract => [98, 99]
  | spindle => [3, 4, 5]

/-- Whether a word sets the mode of a group. -/
def Word.sets [Scalar α] (g : Group) (w : Word α) : Bool :=
  w.letter == g.letter && (codeNumber? w.value).any g.codes.contains

theorem Setting.of_ofGCode? {n : Nat} {setting : Setting} (h : ofGCode? n = some setting) :
    setting.group.letter = 'G' ∧ n ∈ setting.group.codes := by
  unfold ofGCode? at h
  split at h <;> cases h <;> decide

theorem Setting.of_ofMCode? {n : Nat} {setting : Setting} (h : ofMCode? n = some setting) :
    setting.group.letter = 'M' ∧ n ∈ setting.group.codes := by
  unfold ofMCode? at h
  split at h <;> cases h <;> decide

namespace Role

theorem group_ofGCode {g : Group} (letter : g.letter = 'G') :
    ∀ n ∈ g.codes, (ofGCode (some n)).group? = some g := by
  cases g <;> revert letter <;> decide

theorem group_ofMCode {g : Group} (letter : g.letter = 'M') :
    ∀ n ∈ g.codes, (ofMCode (some n)).group? = some g := by
  cases g <;> revert letter <;> decide

theorem of_group_ofGCode {code : Option Nat} {g : Group} (h : (ofGCode code).group? = some g) :
    g.letter = 'G' ∧ code.any g.codes.contains = true := by
  rcases code with _ | n
  · cases h
  · simp only [ofGCode] at h
    split at h
    · cases h
    · split at h
      · rename_i setting known
        obtain rfl : setting.group = g := Option.some.inj h
        simpa using Setting.of_ofGCode? known
      · cases h

theorem of_group_ofMCode {code : Option Nat} {g : Group} (h : (ofMCode code).group? = some g) :
    g.letter = 'M' ∧ code.any g.codes.contains = true := by
  rcases code with _ | n
  · cases h
  · simp only [ofMCode] at h
    split at h
    · cases h
    · split at h
      · rename_i setting known
        obtain rfl : setting.group = g := Option.some.inj h
        simpa using Setting.of_ofMCode? known
      · cases h

end Role

theorem Group.letter_eq_or (g : Group) : g.letter = 'G' ∨ g.letter = 'M' := by
  cases g <;> decide

/-- **The words of a group are those of its letter with one of its codes.** -/
theorem Word.group_eq_some_iff [Scalar α] {w : Word α} {g : Group} :
    (Role.of w).group? = some g ↔ w.sets g = true := by
  constructor
  · intro h
    simp only [Role.of] at h
    split at h
    · rename_i letter
      obtain ⟨same, code⟩ := Role.of_group_ofGCode h
      simp [sets, letter, same, code]
    · split at h
      · rename_i letter
        obtain ⟨same, code⟩ := Role.of_group_ofMCode h
        simp [sets, letter, same, code]
      · split at h
        · split at h <;> cases h
        · cases h
  · intro h
    simp only [sets, Bool.and_eq_true, beq_iff_eq] at h
    obtain ⟨letter, known⟩ := h
    rcases code : codeNumber? w.value with _ | n
    · simp [code] at known
    · simp only [code, Option.any_some, List.contains_iff_mem] at known
      rcases g.letter_eq_or with same | same
      · simp only [Role.of, letter, same, code, if_true]
        exact Role.group_ofGCode same n known
      · simp only [Role.of, letter, same, code, if_true]
        exact Role.group_ofMCode same n known

/-! ### The mode of a group -/

def State.setting (s : State α) : Group → Setting
  | .motion => .motion s.motion
  | .plane => .plane s.plane
  | .units => .units s.units
  | .cutter => .cutter s.cutterSide
  | .length => .length s.lengthComp
  | .workOffset => .workOffset s.workOffset
  | .distance => .distance s.distance
  | .retract => .retract s.drill.retract
  | .spindle => .spindle s.spindle

@[simp] theorem Setting.setting_apply (s : State α) (setting : Setting) (g : Group) :
    (setting.apply s).setting g = if setting.group = g then setting else s.setting g := by
  cases setting <;> cases g <;> rfl

theorem Role.setting_apply_of_ne {role : Role} {g : Group} (h : role.group? ≠ some g)
    (s : State α) : (role.apply s).setting g = s.setting g := by
  cases role with
  | sets setting =>
    have other : setting.group ≠ g := fun same => h (congrArg some same)
    simp [Role.apply, other]
  | _ => rfl

@[simp] theorem State.setting_endSeries (s : State α) (g : Group) :
    s.endSeries.setting g = s.setting g := by
  unfold State.endSeries
  split
  · rfl
  · cases g <;> rfl

theorem Setting.apply_comm {first second : Setting} (h : first.group ≠ second.group)
    (s : State α) : second.apply (first.apply s) = first.apply (second.apply s) := by
  cases first <;> cases second <;> first | rfl | exact absurd rfl h

/-! ### Registers -/

/-- What a memory stores beside its modes and the levels of the drill cycle. -/
inductive Register where
  | tool | feed | speed | length | diameter
  deriving DecidableEq, Repr

def Register.letter : Register → Char
  | tool => 'T'
  | feed => 'F'
  | speed => 'S'
  | length => 'H'
  | diameter => 'D'

/-- Whether a value suits a register: feed and speed must not be negative, and the others
    are whole numbers. -/
def Register.admits [Scalar α] (r : Register) (value : α) : Bool :=
  match r with
  | feed | speed => decide ((0.0 : α) ≤ value)
  | tool | length | diameter => (codeNumber? value).isSome

def State.register (s : State α) : Register → α ⊕ Nat
  | .tool => .inr s.tool
  | .feed => .inl s.feedRate
  | .speed => .inl s.spindleSpeed
  | .length => .inr s.lengthRegister
  | .diameter => .inr s.diameterRegister

@[simp] theorem Setting.register_apply (s : State α) (setting : Setting) (r : Register) :
    (setting.apply s).register r = s.register r := by
  cases setting <;> cases r <;> rfl

@[simp] theorem State.register_endSeries (s : State α) (r : Register) :
    s.endSeries.register r = s.register r := by
  unfold State.endSeries
  split
  · rfl
  · cases r <;> rfl

variable [Scalar α]

theorem Word.of_role_tool {w : Word α} {n : Nat} (h : Role.of w = .tool n) :
    w.letter = 'T' ∧ codeNumber? w.value = some n := by
  simp only [Role.of] at h
  split at h
  · rcases code : codeNumber? w.value with _ | m <;> simp only [code, Role.ofGCode] at h
    · cases h
    · split at h
      · cases h
      · split at h <;> cases h
  · split at h
    · rcases code : codeNumber? w.value with _ | m <;> simp only [code, Role.ofMCode] at h
      · cases h
      · split at h
        · cases h
        · split at h <;> cases h
    · split at h
      · rename_i letter
        split at h
        · rename_i code
          cases h
          exact ⟨letter, code⟩
        · cases h
      · cases h

theorem Role.register_apply_of_ne {w : Word α} {r : Register}
    (h : ¬(w.letter = r.letter ∧ r.admits w.value = true)) (s : State α) :
    ((Role.of w).apply s).register r = s.register r := by
  rcases role : Role.of w with setting | n | _ | _ | _ | _ | _
  case tool =>
    obtain ⟨letter, code⟩ := Word.of_role_tool role
    cases r with
    | tool => exact absurd ⟨letter, by simp [Register.admits, code]⟩ h
    | _ => rfl
  all_goals first | rfl | exact Setting.register_apply s setting r

namespace State

/-- Each letter has a register of its own, which a suitable value replaces. -/
theorem applyRegister_eq (scale : α) (s : State α) (w : Word α) :
    s.applyRegister scale w = { s with
      feedRate := if w.letter = 'F' ∧ (0.0 : α) ≤ w.value then w.value * scale else s.feedRate
      spindleSpeed := if w.letter = 'S' ∧ (0.0 : α) ≤ w.value then w.value else s.spindleSpeed
      lengthRegister :=
        if w.letter = 'H' then (codeNumber? w.value).getD s.lengthRegister else s.lengthRegister
      diameterRegister :=
        if w.letter = 'D' then (codeNumber? w.value).getD s.diameterRegister
        else s.diameterRegister } := by
  unfold State.applyRegister
  split
  · split <;> simp_all
  · split
    · split <;> simp_all
    · split
      · cases codeNumber? w.value <;> simp_all
      · split
        · cases codeNumber? w.value <;> simp_all
        · simp_all

@[simp] theorem setting_applyRegister (scale : α) (s : State α) (w : Word α) (g : Group) :
    (s.applyRegister scale w).setting g = s.setting g := by
  rw [applyRegister_eq]
  cases g <;> rfl

theorem register_applyRegister_of_ne (scale : α) {w : Word α} {r : Register}
    (h : ¬(w.letter = r.letter ∧ r.admits w.value = true)) (s : State α) :
    (s.applyRegister scale w).register r = s.register r := by
  rw [applyRegister_eq]
  cases r with
  | tool => rfl
  | feed => simp_all [register, Register.letter, Register.admits]
  | speed => simp_all [register, Register.letter, Register.admits]
  | length =>
    simp only [Register.letter, Register.admits, not_and, Bool.not_eq_true,
      Option.isSome_eq_false_iff, Option.isNone_iff_eq_none] at h
    simp +contextual [register, h]
  | diameter =>
    simp only [Register.letter, Register.admits, not_and, Bool.not_eq_true,
      Option.isSome_eq_false_iff, Option.isNone_iff_eq_none] at h
    simp +contextual [register, h]

theorem applyRegister_comm (scale : α) {v w : Word α} (h : v.letter ≠ w.letter)
    (s : State α) :
    (s.applyRegister scale v).applyRegister scale w =
      (s.applyRegister scale w).applyRegister scale v := by
  simp only [applyRegister_eq]
  congr 1 <;> grind

end State

end NumericalControl
