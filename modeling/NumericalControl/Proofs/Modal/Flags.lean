/-
  NumericalControl/Proofs/Modal/Flags.lean
  ========================================
  **Words that set flags only.**  Compensation for the cutter, the spindle and the tool are
  remembered and reported, but no request depends on them.  The words that set them, with
  line numbers and the M words without effect, are the flags of a line (`Word.isFlag`), and
  `State.bare` is a memory that forgets what they set.

  Forgetting commutes with the reading of a line: it comes to the same whether a line is
  read and the flags are then forgotten, or the flags are taken from the memory and from the
  line before it is read, and the request is the same in both cases (`State.bare_apply`).
  A flag vanishes in each of the readings, and all other words see the rest of the memory
  only, which is what the lemma on folds asks for (`foldl_filter_of_view`).
-/
import NumericalControl.Proofs.Modal.Mode

namespace NumericalControl

/-- A view on a state under which some steps of a fold vanish, and which all others keep. -/
theorem foldl_filter_of_view {σ β : Type} {f : σ → β → σ} {view : σ → σ} {p : β → Bool}
    (kept : ∀ s x, p x = true → view (f s x) = f (view s) x)
    (dropped : ∀ s x, p x = false → view (f s x) = view s) (steps : List β) (s : σ) :
    (steps.filter p).foldl f (view s) = view (steps.foldl f s) := by
  induction steps generalizing s with
  | nil => rfl
  | cons x rest ih =>
    rcases hx : p x with _ | _
    · simp [hx, ← ih, dropped s x hx]
    · simp [hx, ← ih, kept s x hx]

variable {α : Type} [Scalar α]

/-! ### Flags -/

/-- The letters that set flags only: cutter register, speed, tool, line number and M. -/
def flagLetters : List Char := ['D', 'S', 'T', 'N', 'M']

def Word.isFlag (w : Word α) : Bool := flagLetters.contains w.letter || w.sets .cutter

/-- The words of a line without its flags. -/
def Word.bare (words : List (Word α)) : List (Word α) := words.filter fun w => !w.isFlag

/-- The memory without what flags set. -/
def State.bare (s : State α) : State α :=
  { s with
    spindleSpeed := 0.0
    spindle := none
    diameterRegister := 0
    cutterSide := none
    tool := 0 }

/-- The roles of flags. -/
def Role.isFlag : Role → Bool
  | sets setting => setting.group == .cutter || setting.group == .spindle
  | dwell | passthrough => false
  | tool _ | unknownMCode | invalid | neutral => true

theorem Role.isFlag_of_group {role : Role} {g : Group} (h : role.group? = some g) :
    role.isFlag = (g == .cutter || g == .spindle) := by
  cases role with
  | sets setting =>
    obtain rfl : setting.group = g := Option.some.inj h
    rfl
  | _ => cases h

theorem Role.isFlag_ofMCode (code : Option Nat) : (ofMCode code).isFlag = true := by
  rcases code with _ | n
  · rfl
  · simp only [ofMCode]
    split
    · rfl
    · split
      · rename_i setting known
        have letter := (Setting.of_ofMCode? known).1
        cases setting <;> first | rfl | cases letter
      · rfl

namespace Word

theorem isFlag_of_letter {w : Word α} (h : w.letter ∈ flagLetters) : w.isFlag = true := by
  simp [isFlag, h]

theorem letter_of_isFlag {w : Word α} (h : w.isFlag = true) : w.letter ∈ 'G' :: flagLetters := by
  simp only [isFlag, sets, Bool.or_eq_true, List.contains_iff_mem, Bool.and_eq_true,
    beq_iff_eq] at h
  exact List.mem_cons.mpr (h.symm.imp_left And.left)

/-- **A flag sets the cutter, the spindle or the tool, or nothing.** -/
theorem role_of_isFlag {w : Word α} (h : w.isFlag = true) : (Role.of w).isFlag = true := by
  simp only [isFlag, Bool.or_eq_true, List.contains_iff_mem] at h
  rcases h with letter | cutter
  · simp only [flagLetters, List.mem_cons, List.not_mem_nil, or_false] at letter
    rcases letter with letter | letter | letter | letter | letter
    case inr.inr.inl =>
      rcases code : codeNumber? w.value with _ | n <;> simp [Role.of, letter, code, Role.isFlag]
    case inr.inr.inr.inr => simpa [Role.of, letter] using Role.isFlag_ofMCode _
    all_goals simp [Role.of, letter, Role.isFlag]
  · rw [Role.isFlag_of_group (group_eq_some_iff.mpr cutter)]
    rfl

end Word

/-! ### The first two readings -/

theorem Role.bare_apply_of_isFlag {role : Role} (h : role.isFlag = true) (s : State α) :
    (role.apply s).bare = s.bare := by
  cases role with
  | sets setting => cases setting <;> first | rfl | cases h
  | _ => rfl

theorem Role.bare_apply_of_not_isFlag {w : Word α} (h : w.isFlag = false) (s : State α) :
    ((Role.of w).apply s).bare = (Role.of w).apply s.bare := by
  have letter : w.letter ∉ flagLetters := by
    intro mem
    rw [Word.isFlag_of_letter mem] at h
    cases h
  rcases role : Role.of w with setting | n | _ | _ | _ | _ | _
  case sets =>
    have sets : w.sets setting.group = true := Word.group_eq_some_iff.mp (by rw [role]; rfl)
    cases setting with
    | cutter =>
      have flag : w.isFlag = true := by simp [Word.isFlag, show w.sets .cutter = true from sets]
      rw [flag] at h
      cases h
    | spindle =>
      simp only [Word.sets, Bool.and_eq_true, beq_iff_eq] at sets
      have mode : w.letter = 'M' := sets.1
      exact absurd (by rw [mode]; decide) letter
    | _ => rfl
  case tool => exact absurd (by rw [(Word.of_role_tool role).1]; decide) letter
  all_goals rfl

namespace State

theorem bare_endSeries (s : State α) : s.bare.endSeries = s.endSeries.bare := by
  have motion : s.bare.motion = s.motion := rfl
  by_cases drilling : s.motion = some .drill
  · simp [endSeries, motion, drilling]
  · simp only [endSeries, motion, drilling, if_false]
    rfl

theorem bare_applyModes (s : State α) (words : List (Word α)) :
    s.bare.applyModes (Word.bare words) = (s.applyModes words).bare := by
  have modes : (Word.bare words).foldl (fun s w => (Role.of w).apply s) s.bare =
      (words.foldl (fun s w => (Role.of w).apply s) s).bare := by
    refine foldl_filter_of_view (fun s w keep => ?_) (fun s w drop => ?_) words s
    · exact Role.bare_apply_of_not_isFlag (by simpa using keep) s
    · exact Role.bare_apply_of_isFlag (Word.role_of_isFlag (by simpa using drop)) s
  rw [applyModes, modes, bare_endSeries, applyModes]

theorem bare_applyRegister_of_isFlag {w : Word α} (h : w.isFlag = true) (scale : α)
    (s : State α) : (s.applyRegister scale w).bare = s.bare := by
  have letter := Word.letter_of_isFlag h
  have notF : w.letter ≠ 'F' := by
    intro same
    rw [same] at letter
    exact absurd letter (by decide)
  have notH : w.letter ≠ 'H' := by
    intro same
    rw [same] at letter
    exact absurd letter (by decide)
  simp [applyRegister_eq, bare, notF, notH]

theorem bare_applyRegister_of_not_isFlag {w : Word α} (h : w.isFlag = false) (scale : α)
    (s : State α) : (s.applyRegister scale w).bare = s.bare.applyRegister scale w := by
  have notS : w.letter ≠ 'S' := by
    intro same
    rw [Word.isFlag_of_letter (by rw [same]; decide)] at h
    cases h
  have notD : w.letter ≠ 'D' := by
    intro same
    rw [Word.isFlag_of_letter (by rw [same]; decide)] at h
    cases h
  simp [applyRegister_eq, bare, notS, notD]

theorem bare_foldl_applyRegister (scale : α) (words : List (Word α)) (s : State α) :
    (Word.bare words).foldl (applyRegister scale) s.bare =
      (words.foldl (applyRegister scale) s).bare := by
  refine foldl_filter_of_view (fun s w keep => ?_) (fun s w drop => ?_) words s
  · exact bare_applyRegister_of_not_isFlag (by simpa using keep) scale s
  · exact bare_applyRegister_of_isFlag (by simpa using drop) scale s

end State

/-! ### What a line gives beside its flags -/

namespace Word

theorem last?_bare {letter : Char} (h : letter ∉ 'G' :: flagLetters) (words : List (Word α)) :
    last? letter (bare words) = last? letter words := by
  have same : ∀ w : Word α, (w.letter == letter && !w.isFlag) = (w.letter == letter) := by
    intro w
    rcases flag : w.isFlag with _ | _
    · simp
    · have other : w.letter ≠ letter := by
        rintro rfl
        exact h (letter_of_isFlag flag)
      simp [other]
  simp only [last?, bare, List.filter_filter, same]

theorem any_bare (test : Role → Bool) (h : ∀ role, role.isFlag = true → test role = false)
    (words : List (Word α)) :
    ((bare words).any fun w => test (Role.of w)) = words.any fun w => test (Role.of w) := by
  rw [bare, List.any_filter]
  congr 1
  funext w
  rcases flag : w.isFlag with _ | _
  · rfl
  · simp [h _ (role_of_isFlag flag)]

end Word

section

variable (words : List (Word α))

theorem isPassthrough_bare : isPassthrough (Word.bare words) = isPassthrough words := by
  refine Word.any_bare (· == .passthrough) (fun role flag => ?_) words
  cases role <;> first | rfl | cases flag

theorem asksForDwell_bare : asksForDwell (Word.bare words) = asksForDwell words := by
  refine Word.any_bare (· == .dwell) (fun role flag => ?_) words
  cases role <;> first | rfl | cases flag

theorem namesMotion_bare : namesMotion (Word.bare words) = namesMotion words := by
  refine Word.any_bare (·.group? == some .motion) (fun role flag => ?_) words
  cases role with
  | sets setting => cases setting <;> first | rfl | cases flag
  | _ => rfl

theorem dwellTime?_bare : dwellTime? (Word.bare words) = dwellTime? words := by
  have swapped : (Word.bare words).filter (fun w => decide ((0.0 : α) ≤ w.value)) =
      Word.bare (words.filter fun w => decide ((0.0 : α) ≤ w.value)) := by
    simp only [Word.bare, List.filter_filter, Bool.and_comm]
  rw [dwellTime?, swapped, Word.last?_bare (by decide), dwellTime?]

theorem ArcWords.ofWords_bare (scale : α) :
    ArcWords.ofWords scale (Word.bare words) = ArcWords.ofWords scale words := by
  simp only [ofWords, Word.last?_bare (show 'I' ∉ 'G' :: flagLetters by decide),
    Word.last?_bare (show 'J' ∉ 'G' :: flagLetters by decide),
    Word.last?_bare (show 'K' ∉ 'G' :: flagLetters by decide),
    Word.last?_bare (show 'R' ∉ 'G' :: flagLetters by decide)]

theorem AxisWords.ofWords_bare (scale : α) :
    AxisWords.ofWords scale (Word.bare words) = AxisWords.ofWords scale words := by
  funext axis
  have letter : axis.letter ∉ 'G' :: flagLetters := by cases axis <;> decide
  simp only [ofWords_eq, Word.last?_bare letter]

end

/-! ### Whole lines -/

namespace State

theorem bare_drillLine (s : State α) (request : Request α) (axes : AxisWords α)
    (callsCycle : Bool) :
    (s.bare.drillLine request axes callsCycle).request =
        (s.drillLine request axes callsCycle).request ∧
      (s.bare.drillLine request axes callsCycle).state =
        (s.drillLine request axes callsCycle).state.bare := by
  simp only [drillLine, bare]
  split
  · split <;> exact ⟨rfl, rfl⟩
  · exact ⟨rfl, rfl⟩

theorem bare_motionLine (s : State α) (request : Request α) (axes : AxisWords α)
    (words : List (Word α)) :
    (s.bare.motionLine request axes words).request =
        (s.motionLine request axes words).request ∧
      (s.bare.motionLine request axes words).state =
        (s.motionLine request axes words).state.bare := by
  have motion : s.bare.motion = s.motion := rfl
  simp only [motionLine, motion]
  split
  · exact ⟨rfl, rfl⟩
  · split
    · exact ⟨rfl, rfl⟩
    · exact bare_drillLine s request axes _
    · split <;> exact ⟨rfl, rfl⟩

/-- **Flags may be forgotten before a line is read or after it**: it asks for the same, and
    leaves the same memory beside them. -/
theorem bare_apply (s : State α) (words : List (Word α)) :
    (s.bare.apply (Word.bare words)).request = (s.apply words).request ∧
      (s.bare.apply (Word.bare words)).state = (s.apply words).state.bare := by
  have units : (s.applyModes words).bare.units = (s.applyModes words).units := rfl
  have position : s.bare.position = s.position := rfl
  have passed : ∀ (s : State α) (request : Request α) (axes : AxisWords α),
      s.motionLine request axes (Word.bare words) = s.motionLine request axes words := by
    intro s request axes
    simp only [motionLine, isPassthrough_bare, namesMotion_bare]
  simp only [apply, bare_applyModes, units, position, bare_foldl_applyRegister,
    ArcWords.ofWords_bare, AxisWords.ofWords_bare, asksForDwell_bare, dwellTime?_bare, passed]
  exact bare_motionLine _ _ _ words

theorem bare_apply_congr {s t : State α} (h : s.bare = t.bare) {words other : List (Word α)}
    (same : Word.bare words = Word.bare other) :
    (s.apply words).request = (t.apply other).request ∧
      (s.apply words).state.bare = (t.apply other).state.bare := by
  obtain ⟨request, state⟩ := bare_apply s words
  obtain ⟨request', state'⟩ := bare_apply t other
  rw [h, same] at request state
  exact ⟨request.symm.trans request', state.symm.trans state'⟩

end State

end NumericalControl
