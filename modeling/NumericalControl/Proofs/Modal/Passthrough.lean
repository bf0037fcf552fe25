/-
  NumericalControl/Proofs/Modal/Passthrough.lean
  ==============================================
  **Lines with an unknown G code.**  A G word whose number belongs to no code could mean
  any motion, so its line is passed through: it sets its modes and registers, it pauses,
  and it moves nothing.  `Outcome.PassesThrough` says all of that, and
  `State.passesThrough_apply` proves it of every line with such a word.

  In particular the line acts as what is left of it without those G words and without the
  words that say where to go (`Word.motionless`).  None of the words that are left out is
  seen by the first two readings.  The third one stops at once on the line itself, and on
  what is left of it finds neither an axis nor an arc, which moves nothing in any motion
  mode: a level of the drill cycle stays, and no hole is drilled.
-/
import NumericalControl.Proofs.Binary64.Whole
import NumericalControl.Proofs.Modal.Persistence
import NumericalControl.Segment
import NumericalControl.Word.Line

namespace NumericalControl

open Scalar

/-! ### Unknown codes -/

/-- The numbers of the G codes. -/
def gCodes : List Nat :=
  [0, 1, 2, 3, dwellCode, 17, 18, 19, 20, 21, 40, 41, 42, 43, 49, 54, 55, 56, 57, 58, 59, 80, 81,
    90, 91, 98, 99]

/-- A G word whose number is infinite or undefined, negative, away from whole numbers, or
    the number of no code. -/
def Word.IsUnsupported (w : Word Float) : Prop :=
  w.letter = 'G' ∧ (isFinite w.value = false ∨ ¬0.0 ≤ w.value ∨
    ¬Scalar.abs (w.value - round w.value) < codeTolerance ∨ floor (round w.value) ∉ gCodes)

instance (w : Word Float) : Decidable w.IsUnsupported := inferInstanceAs (Decidable (_ ∧ _))

theorem codeNumber?_of_not_finite {x : Float} (h : isFinite x = false) : codeNumber? x = none := by
  have infinite : ¬x.toModel.unpack.isFinite = true := by
    rw [← Binary64.isFinite_iff, h]
    exact Bool.false_ne_true
  rcases hx : x.toModel.unpack with s | _ | s | ⟨s, m, e, positive⟩
  case infinity =>
    obtain rfl : x = .ofModel (.pack (.infinity s)) :=
      Binary64.unpack_inj (hx.trans (Binary64.unpack_pack_infinity s).symm)
    cases s <;> decide +kernel
  case notANumber =>
    obtain rfl : x = Binary64.nan :=
      Binary64.unpack_inj (hx.trans Binary64.unpack_pack_notANumber.symm)
    decide +kernel
  all_goals exact absurd (by rw [hx]; rfl) infinite

namespace Role

theorem mem_gCodes_of_group {g : Group} (letter : g.letter = 'G') : ∀ n ∈ g.codes, n ∈ gCodes := by
  cases g <;> revert letter <;> decide

theorem ofGCode_eq_passthrough_iff {code : Option Nat} :
    ofGCode code = passthrough ↔ ∀ n, code = some n → n ∉ gCodes := by
  rcases code with _ | n
  · simp [ofGCode]
  · simp only [Option.some.injEq, forall_eq']
    constructor
    · intro unknown known
      have named : ∀ n ∈ gCodes, ofGCode (some n) ≠ passthrough := by decide
      exact named n known unknown
    · intro unknown
      have pause : n ≠ dwellCode := by
        rintro rfl
        exact unknown (by decide)
      rw [ofGCode, if_neg pause]
      rcases known : Setting.ofGCode? n with _ | setting
      · rfl
      · obtain ⟨letter, mem⟩ := Setting.of_ofGCode? known
        exact absurd (mem_gCodes_of_group letter n mem) unknown

theorem min_registerLimit_mem {n : Nat} : min n registerLimit ∈ gCodes ↔ n ∈ gCodes := by
  have small : ∀ n ∈ gCodes, n ≤ 99 := by decide
  rcases Nat.le_total n registerLimit with below | above
  · rw [Nat.min_eq_left below]
  · rw [Nat.min_eq_right above]
    refine iff_of_false (by decide) fun mem => ?_
    have limit : registerLimit = 4294967295 := rfl
    have := small n mem
    omega

theorem of_ne_passthrough {α : Type} [Scalar α] {w : Word α} (letter : w.letter ≠ 'G') :
    Role.of w ≠ passthrough := by
  simp only [Role.of, letter, if_false]
  split
  · rcases codeNumber? w.value with _ | n
    · simp [ofMCode]
    · simp only [ofMCode]
      repeat' split
      all_goals simp
  · repeat' split
    all_goals simp

/-- **A word is passed through when it is a G word of no code.** -/
theorem of_eq_passthrough_iff {w : Word Float} : Role.of w = passthrough ↔ w.IsUnsupported := by
  by_cases letter : w.letter = 'G'
  · have role : Role.of w = ofGCode (codeNumber? w.value) := if_pos letter
    rw [role, ofGCode_eq_passthrough_iff]
    simp only [Word.IsUnsupported, letter, true_and]
    constructor
    · intro unknown
      by_contra known
      simp only [not_or, not_not, Bool.not_eq_false] at known
      obtain ⟨-, above, near, code⟩ := known
      refine unknown _ (if_pos ⟨above, near⟩) (min_registerLimit_mem.mpr code)
    · intro unsupported n code
      have finite : isFinite w.value = true := by
        by_contra infinite
        rw [codeNumber?_of_not_finite (Bool.not_eq_true _ ▸ infinite)] at code
        cases code
      unfold codeNumber? at code
      dsimp only at code
      split at code
      · rename_i whole
        obtain rfl := Option.some.inj code
        rw [min_registerLimit_mem]
        simpa [finite, whole.1, whole.2] using unsupported
      · cases code
  · simp [Word.IsUnsupported, letter, of_ne_passthrough letter]

end Role

/-! ### What is left of a line -/

/-- The letters of the words that say where to go: axes, center of an arc, and R. -/
def placeLetters : List Char := ['X', 'Y', 'Z', 'A', 'B', 'I', 'J', 'K', 'R']

namespace Word

/-- A word without an effect on a line that is passed through. -/
def IsIdle (w : Word Float) : Prop := w.IsUnsupported ∨ w.letter ∈ placeLetters

instance (w : Word Float) : Decidable w.IsIdle := inferInstanceAs (Decidable (_ ∨ _))

/-- The words of a line that are left when it is passed through. -/
def motionless (words : List (Word Float)) : List (Word Float) :=
  words.filter fun w => !decide w.IsIdle

theorem letter_of_isIdle {w : Word Float} (h : w.IsIdle) : w.letter ∈ 'G' :: placeLetters := by
  rcases h with unsupported | place
  · simp [unsupported.1]
  · exact List.mem_cons_of_mem _ place

theorem role_of_isIdle {w : Word Float} (h : w.IsIdle) :
    Role.of w = .passthrough ∨ Role.of w = .neutral := by
  rcases h with unsupported | place
  · exact .inl (Role.of_eq_passthrough_iff.mpr unsupported)
  · right
    simp only [placeLetters, List.mem_cons, List.not_mem_nil, or_false] at place
    rcases place with h | h | h | h | h | h | h | h | h <;> simp [Role.of, h]

theorem apply_of_isIdle {w : Word Float} (h : w.IsIdle) (s : State Float) :
    (Role.of w).apply s = s := by
  rcases role_of_isIdle h with role | role <;> rw [role] <;> rfl

theorem applyRegister_of_isIdle {w : Word Float} (h : w.IsIdle) (scale : Float)
    (s : State Float) : s.applyRegister scale w = s := by
  have letter := letter_of_isIdle h
  simp only [placeLetters, List.mem_cons, List.not_mem_nil, or_false] at letter
  rcases letter with h | h | h | h | h | h | h | h | h | h <;> simp [State.applyRegister, h]

theorem mem_motionless {w : Word Float} {words : List (Word Float)} :
    w ∈ motionless words ↔ w ∈ words ∧ ¬w.IsIdle := by
  simp [motionless]

/-- A fold that no idle word changes does not need them. -/
theorem foldl_motionless {σ : Type} {f : σ → Word Float → σ}
    (idle : ∀ s w, w.IsIdle → f s w = s) (words : List (Word Float)) (s : σ) :
    (motionless words).foldl f s = words.foldl f s := by
  induction words generalizing s with
  | nil => rfl
  | cons w rest ih =>
    by_cases skipped : w.IsIdle
    · have left : motionless (w :: rest) = motionless rest := by simp [motionless, skipped]
      rw [left, ih, List.foldl_cons, idle s w skipped]
    · have left : motionless (w :: rest) = w :: motionless rest := by simp [motionless, skipped]
      rw [left, List.foldl_cons, List.foldl_cons, ih]

variable (words : List (Word Float))

theorem last?_motionless {letter : Char} (other : letter ∉ 'G' :: placeLetters)
    (p : Word Float → Bool) :
    last? letter ((motionless words).filter p) = last? letter (words.filter p) := by
  simp only [last?, motionless, List.filter_filter]
  congr 2
  refine List.filter_congr fun w _ => ?_
  by_cases idle : w.IsIdle
  · have apart : (w.letter == letter) = false :=
      beq_false_of_ne fun same => other (same ▸ letter_of_isIdle idle)
    rw [apart, Bool.false_and, Bool.false_and]
  · simp [idle]

theorem last?_motionless_of_place {letter : Char} (place : letter ∈ placeLetters) :
    last? letter (motionless words) = none := by
  refine last?_eq_none fun w mem same => ?_
  exact (mem_motionless.mp mem).2 (.inr (same ▸ place))

theorem asksForDwell_motionless : asksForDwell (motionless words) = asksForDwell words := by
  simp only [asksForDwell, motionless, List.any_filter]
  congr 1
  funext w
  by_cases idle : w.IsIdle
  · rcases role_of_isIdle idle with role | role <;> simp [role]
  · simp [idle]

theorem axisWords_motionless (scale : Float) (axis : Axis) :
    AxisWords.ofWords scale (motionless words) axis = none := by
  have place : axis.letter ∈ placeLetters := by cases axis <;> decide
  simp [AxisWords.ofWords_eq, last?_motionless_of_place words place]

theorem arcWords_motionless (scale : Float) :
    ArcWords.ofWords scale (motionless words) = .empty := by
  have gone : ∀ letter ∈ placeLetters, last? letter (motionless words) = none :=
    fun _ place => last?_motionless_of_place words place
  simp [ArcWords.ofWords, ArcWords.empty, gone 'I' (by decide), gone 'J' (by decide),
    gone 'K' (by decide), gone 'R' (by decide)]

end Word

/-! ### Lines that are passed through -/

theorem State.read_motionless (old : State Float) (words : List (Word Float)) :
    old.read (Word.motionless words) = old.read words := by
  have modes : old.applyModes (Word.motionless words) = old.applyModes words :=
    congrArg State.endSeries
      (Word.foldl_motionless (fun s _ idle => Word.apply_of_isIdle idle s) words old)
  rw [State.read, modes]
  exact Word.foldl_motionless (fun s _ idle => Word.applyRegister_of_isIdle idle _ s) words _

theorem State.dwell_motionless (old : State Float) (words : List (Word Float)) :
    (old.apply (Word.motionless words)).request.dwell = (old.apply words).request.dwell := by
  rw [State.dwell_apply, State.dwell_apply, Word.asksForDwell_motionless, dwellTime?, dwellTime?,
    Word.last?_motionless words (by decide)]

section

variable {α : Type} [Scalar α]

theorem State.motionLine_of_isPassthrough {words : List (Word α)} (h : isPassthrough words = true)
    (s : State α) (request : Request α) (axes : AxisWords α) :
    (s.motionLine request axes words).state = s ∧
      (s.motionLine request axes words).request = request := by
  simp [State.motionLine, h]

/-- Without an axis and without a word of an arc, the third reading leaves the memory alone. -/
theorem State.state_motionLine_of_empty (s : State α) {request : Request α} {axes : AxisWords α}
    (still : ∀ axis, axes axis = none) (straight : request.arc = .empty) (words : List (Word α)) :
    (s.motionLine request axes words).state = s := by
  have axisless : axes.isAny = false := by simp [AxisWords.isAny, still]
  have empty : request.arc.isEmpty = true := by simp [straight, ArcWords.isEmpty, ArcWords.empty]
  simp only [State.motionLine, axisless, empty]
  split
  · rfl
  · split
    · rfl
    · simp [State.drillLine, axisless, straight, ArcWords.empty, still]
    · simp

end

/-- What an outcome comes to when its line is passed through. -/
structure Outcome.PassesThrough (old : State Float) (words : List (Word Float))
    (outcome : Outcome Float) : Prop where
  motion : outcome.request.motion = none
  start : outcome.request.start = old.position
  target : outcome.request.target = old.position
  segments : ∀ plane machine, (Segment.ofRequest outcome.request plane machine).1 = []
  /-- The line acts as what is left of it. -/
  state : outcome.state = (old.apply (Word.motionless words)).state
  dwell : outcome.request.dwell = (old.apply (Word.motionless words)).request.dwell
  /-- Its modes and registers are set, and the position and the levels of the drill cycle
      are not. -/
  read : outcome.state = old.read words
  position : outcome.state.position = old.position
  levels : outcome.state.drill.rPlane = old.drill.rPlane ∧
    outcome.state.drill.depth = old.drill.depth

/-- **A line with an unknown G code moves nothing and acts as what is left of it**, in any
    memory and wherever the word stands. -/
theorem State.passesThrough_apply (old : State Float) {words : List (Word Float)}
    (unsupported : ∃ w ∈ words, w.IsUnsupported) : (old.apply words).PassesThrough old words := by
  have passthrough : isPassthrough words = true := by
    obtain ⟨w, mem, h⟩ := unsupported
    exact List.any_eq_true.mpr ⟨w, mem, beq_iff_eq.mpr (Role.of_eq_passthrough_iff.mpr h)⟩
  obtain ⟨state, request⟩ := State.motionLine_of_isPassthrough passthrough (old.read words)
    (old.asked words) (.ofWords (old.applyModes words).units.scale words)
  have state : (old.apply words).state = old.read words := state
  have motion : (old.apply words).request.motion = none := congrArg Request.motion request
  have rest : (old.apply (Word.motionless words)).state = old.read (Word.motionless words) :=
    State.state_motionLine_of_empty _ (Word.axisWords_motionless words _)
      (Word.arcWords_motionless words _) _
  constructor
  case motion => exact motion
  case start => exact congrArg Request.start request
  case target => exact congrArg Request.target request
  case segments =>
    intro plane machine
    simp only [Segment.ofRequest, motion]
  case state => rw [rest, State.read_motionless, state]
  case dwell => exact (State.dwell_motionless old words).symm
  case read => exact state
  case position => rw [state, State.position_read]
  case levels =>
    rw [state]
    exact State.levels_read old words

/-- In the drill cycle, with a code between whole numbers, a hole, new levels, a feed and a
    pause on the line. -/
theorem State.passesThrough_drilled :
    let old : State Float := (State.initial.apply (Line.read "G81 X1 R2 Z-3 F50").words).state
    let words : List (Word Float) := (Line.read "X5 G43.4 R4 Z-9 F70 M3 G4 P2").words
    (∃ w ∈ words, w.IsUnsupported) ∧ (old.apply words).PassesThrough old words ∧
      (old.apply words).state.feedRate = 70.0 ∧ (old.apply words).request.dwell = some 2.0 ∧
      (old.apply words).state.drill.rPlane = some 2.0 := by
  intro old words
  have unsupported : ∃ w ∈ words, w.IsUnsupported := by decide +kernel
  exact ⟨unsupported, State.passesThrough_apply old unsupported, by decide +kernel⟩

end NumericalControl
