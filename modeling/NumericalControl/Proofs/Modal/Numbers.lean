/-
  NumericalControl/Proofs/Modal/Numbers.lean
  ==========================================
  **The number that was written.**  Codes and registers have whole numbers, and a value
  stands for the nearest one when it is close enough (`StandsFor`).  A register takes the
  number of the last word of its letter, and a value that stands for none is reported and
  selects nothing.

  The numbers end at a limit, and a value beyond it is neither rejected nor reported: it
  counts as the limit, from which it is far away (`IsBeyond`).  That is the one exception to
  the law that what is selected is what was written (`standsFor_iff`), and it touches
  registers and the texts of findings only, for no operation has a code near the limit.
  `Outcome.TakesNumbers` says all of this about the outcome of a line.
-/
import NumericalControl.Proofs.Binary64.Nearest
import NumericalControl.Proofs.Modal.Order
import NumericalControl.Proofs.Modal.Passthrough

namespace NumericalControl

open Scalar

/-! ### Values and numbers -/

/-- The number is written by the value, within the tolerance of codes. -/
def StandsFor (n : Nat) (value : Float) : Prop :=
  Scalar.abs (value - Scalar.ofNat n) < codeTolerance

instance (n : Nat) (value : Float) : Decidable (StandsFor n value) :=
  inferInstanceAs (Decidable (_ < _))

/-- A whole number, within the tolerance of codes, that is larger than all numbers of
    registers. -/
def IsBeyond (value : Float) : Prop :=
  0.0 ≤ value ∧ Scalar.abs (value - round value) < codeTolerance ∧
    registerLimit < floor (round value)

instance (value : Float) : Decidable (IsBeyond value) := inferInstanceAs (Decidable (_ ∧ _))

theorem codeNumber?_eq_some {value : Float} {n : Nat} (h : codeNumber? value = some n) :
    0.0 ≤ value ∧ Scalar.abs (value - round value) < codeTolerance ∧
      n = min (floor (round value)) registerLimit := by
  simp only [codeNumber?] at h
  split at h
  · rename_i whole
    exact ⟨whole.1, whole.2, (Option.some.inj h).symm⟩
  · cases h

theorem IsBeyond.codeNumber?_eq {value : Float} (h : IsBeyond value) :
    codeNumber? value = some registerLimit := by
  obtain ⟨above, near, beyond⟩ := h
  rw [codeNumber?, if_pos ⟨above, near⟩, Nat.min_eq_right (Nat.le_of_lt beyond)]

/-- A value with a number is a zero or a positive number. -/
theorem zero_or_positive_of_codeNumber? {value : Float} {n : Nat}
    (h : codeNumber? value = some n) : (∃ s, value = .ofModel (.pack (.zero s))) ∨
      ∃ m e, ∃ positive : 0 < m, value.toModel.unpack = .finite .positive m e positive := by
  have finite : isFinite value = true := by
    by_contra infinite
    rw [codeNumber?_of_not_finite (Bool.not_eq_true _ ▸ infinite)] at h
    cases h
  have above := Binary64.nonneg_iff.mp (codeNumber?_eq_some h).1
  rw [Binary64.isFinite_iff] at finite
  rcases unpacked : value.toModel.unpack with s | _ | s | ⟨s, m, e, positive⟩ <;>
    rw [unpacked] at above finite
  case infinity => cases finite
  case notANumber => cases finite
  case zero =>
    exact .inl ⟨s, Binary64.unpack_inj (unpacked.trans (Binary64.unpack_stored_zero s).symm)⟩
  case finite =>
    cases above
    exact .inr ⟨m, e, positive, rfl⟩

/-- The nearest whole number is what a value with a number stands for. -/
theorem standsFor_nearest {value : Float} {n : Nat} (h : codeNumber? value = some n) :
    StandsFor (floor (round value)) value := by
  obtain ⟨-, near, -⟩ := codeNumber?_eq_some h
  rcases zero_or_positive_of_codeNumber? h with ⟨s, rfl⟩ | ⟨m, e, positive, finite⟩
  · cases s <;> decide +kernel
  · rw [StandsFor, Binary64.floor_round finite, ← Binary64.round_finite finite]
    exact near

theorem not_standsFor_registerLimit {value : Float} (h : IsBeyond value) :
    ¬StandsFor registerLimit value := by
  have beyond := h.2.2
  rcases zero_or_positive_of_codeNumber? h.codeNumber?_eq with
    ⟨s, rfl⟩ | ⟨m, e, positive, finite⟩
  · revert beyond
    cases s <;> decide +kernel
  · rw [Binary64.floor_round finite] at beyond
    have apart := Binary64.half_le_sub finite (by decide) (by decide) beyond
    have half : (0.0 : Float) ≤ 0.5 ∧ ¬(0.5 : Float) ≤ 0.0 := by decide +kernel
    have above : (0.0 : Float) < value - Scalar.ofNat registerLimit :=
      OrderedScalar.lt_iff.mpr ⟨OrderedScalar.le_trans half.1 apart,
        fun below => half.2 (OrderedScalar.le_trans apart below)⟩
    have tolerance : (codeTolerance : Float) ≤ 0.5 := by decide +kernel
    rw [StandsFor, Binary64.abs_of_pos above]
    intro near
    exact (OrderedScalar.lt_iff.mp near).2 (OrderedScalar.le_trans tolerance apart)

/-- **The number of a value is the one that was written, unless that is beyond the limit.** -/
theorem standsFor_iff {value : Float} {n : Nat} (h : codeNumber? value = some n) :
    (StandsFor n value ↔ ¬IsBeyond value) ∧ (IsBeyond value → n = registerLimit) := by
  by_cases beyond : IsBeyond value
  · obtain rfl : registerLimit = n := Option.some.inj (beyond.codeNumber?_eq.symm.trans h)
    exact ⟨iff_of_false (not_standsFor_registerLimit beyond) (not_not_intro beyond), fun _ => rfl⟩
  · obtain ⟨above, near, number⟩ := codeNumber?_eq_some h
    have within : floor (round value) ≤ registerLimit :=
      Nat.le_of_not_lt fun large => beyond ⟨above, near, large⟩
    rw [number, Nat.min_eq_left within]
    exact ⟨iff_of_true (standsFor_nearest h) beyond, fun large => absurd large beyond⟩

/-! ### Registers -/

/-- The registers with a number. -/
def Register.numbered : List Register := [.tool, .length, .diameter]

section

variable {α : Type} [Scalar α]

theorem State.tool_foldl_applyRegister (scale : α) (words : List (Word α)) (s : State α) :
    (words.foldl (State.applyRegister scale) s).tool = s.tool := by
  by_contra changed
  obtain ⟨w, -, t, changed⟩ := exists_step_of_foldl_ne State.tool changed
  exact changed (by rw [State.applyRegister_eq])

/-- **A register takes the number of the last word of its letter.** -/
theorem State.register_apply_of_last (old : State α) {words : List (Word α)} {r : Register}
    (numbered : r ∈ Register.numbered) {value : α} {n : Nat}
    (last : Word.last? r.letter words = some value) (code : codeNumber? value = some n) :
    (old.apply words).state.register r = .inr n := by
  rw [(State.keeps_apply old words).register r]
  obtain ⟨front, w, back, split, letter, rfl, apart⟩ := Word.exists_last last
  simp only [Register.numbered, List.mem_cons, List.not_mem_nil, or_false] at numbered
  rcases numbered with rfl | rfl | rfl
  case inl =>
    have tool : (old.read words).register .tool = (old.applyModes words).register .tool :=
      congrArg Sum.inr (State.tool_foldl_applyRegister _ words _)
    rw [tool, State.applyModes, State.register_endSeries, split]
    refine foldl_last_write (State.register · .tool) (fun s => ?_) (fun v mem s => ?_) old
    · simp [Role.of, letter, Register.letter, code, Role.apply, State.register]
    · exact Role.register_apply_of_ne (fun suits => apart v mem suits.1) s
  all_goals
    rw [State.read]
    generalize ((old.applyModes words).units.scale : α) = scale
    rw [split]
    refine foldl_last_write (State.register · _) (fun s => ?_) (fun v mem s => ?_) _
    · simp [State.applyRegister_eq, letter, Register.letter, code, State.register]
    · exact State.register_applyRegister_of_ne scale (fun suits => apart v mem suits.1) s

/-! ### Reports -/

theorem Role.ofGCode_ne_invalid (code : Option Nat) : ofGCode code ≠ .invalid := by
  unfold ofGCode
  repeat' split
  all_goals simp

theorem Role.ofMCode_ne_invalid (code : Option Nat) : ofMCode code ≠ .invalid := by
  unfold ofMCode
  repeat' split
  all_goals simp

theorem Role.of_eq_invalid_iff {w : Word α} :
    Role.of w = .invalid ↔ w.letter = 'T' ∧ codeNumber? w.value = none := by
  by_cases isG : w.letter = 'G'
  · simp [of, isG, ofGCode_ne_invalid]
  · by_cases isM : w.letter = 'M'
    · simp [of, isM, ofMCode_ne_invalid]
    · by_cases isT : w.letter = 'T'
      · rcases code : codeNumber? w.value with _ | n <;> simp [of, isT, code]
      · simp [of, isG, isM, isT]

theorem mem_modeFindings_invalidValue {w : Word α} {seen : List Group} {words : List (Word α)} :
    .invalidValue w ∈ modeFindings seen words ↔ w ∈ words ∧ Role.of w = .invalid := by
  induction words generalizing seen with
  | nil => simp [modeFindings]
  | cons v rest ih =>
    have first : .invalidValue w ∈ (modeFinding? seen v).toList ↔
        w = v ∧ Role.of w = .invalid := by
      rw [Option.mem_toList, modeFinding?]
      rcases role : Role.of v with setting | _ | _ | _ | _ | _ | _
      case invalid =>
        simp only [Option.some.injEq, Finding.invalidValue.injEq]
        exact ⟨fun same => ⟨same.symm, same ▸ role⟩, fun own => own.1.symm⟩
      case sets =>
        dsimp only
        split <;> simp +contextual [role]
      all_goals simp +contextual [role]
    rw [modeFindings_cons, List.mem_append, first, ih, List.mem_cons, or_and_right]

theorem registerFinding?_eq_invalidValue {v w : Word α} (notRate : w.letter ∉ ['F', 'S', 'P']) :
    registerFinding? v = some (.invalidValue w) ↔
      v = w ∧ (w.letter = 'H' ∨ w.letter = 'D') ∧ codeNumber? w.value = none := by
  simp only [List.mem_cons, List.not_mem_nil, or_false] at notRate
  constructor
  · intro found
    simp only [registerFinding?] at found
    split at found
    · rename_i rate
      split at found <;> cases found
      exact absurd rate notRate
    · split at found
      · rename_i numbered
        split at found <;> cases found
        rename_i unreadable
        exact ⟨rfl, numbered, Option.not_isSome_iff_eq_none.mp unreadable⟩
      · split at found <;> cases found
  · rintro ⟨rfl, numbered, unreadable⟩
    rw [registerFinding?, if_neg notRate, if_pos numbered, unreadable]
    rfl

theorem State.invalidValue_notMem_motionLine (s : State α) (request : Request α)
    (axes : AxisWords α) (words : List (Word α)) (w : Word α) :
    .invalidValue w ∉ (s.motionLine request axes words).findings := by
  simp only [State.motionLine, State.drillLine]
  repeat' split
  all_goals simp

/-- **A word of a numbered register is reported exactly when its value has no number.** -/
theorem State.invalidValue_mem_iff (old : State α) {words : List (Word α)} {w : Word α}
    {r : Register} (numbered : r ∈ Register.numbered) (letter : w.letter = r.letter) :
    .invalidValue w ∈ (old.apply words).findings ↔ w ∈ words ∧ codeNumber? w.value = none := by
  have letters : w.letter = 'T' ∨ w.letter = 'H' ∨ w.letter = 'D' := by
    simp only [Register.numbered, List.mem_cons, List.not_mem_nil, or_false] at numbered
    rcases numbered with rfl | rfl | rfl <;> simp [letter, Register.letter]
  have notRate : w.letter ∉ ['F', 'S', 'P'] := by
    rcases letters with h | h | h <;> simp [h]
  have moves := State.invalidValue_notMem_motionLine (old.read words) (old.asked words)
    (.ofWords (old.applyModes words).units.scale words) words w
  have findings : (old.apply words).findings = modeFindings [] words ++
      words.filterMap registerFinding? ++
      (if asksForDwell words && (old.asked words).dwell.isNone then [.dwellWithoutTime] else []) ++
      (old.moved words).findings := rfl
  rw [findings, List.mem_append, List.mem_append, List.mem_append, mem_modeFindings_invalidValue,
    Role.of_eq_invalid_iff, List.mem_filterMap]
  simp only [registerFinding?_eq_invalidValue notRate]
  constructor
  · rintro (((⟨mem, -, unreadable⟩ | ⟨_, mem, rfl, -, unreadable⟩) | mem) | mem)
    · exact ⟨mem, unreadable⟩
    · exact ⟨mem, unreadable⟩
    · split at mem <;> simp at mem
    · exact absurd mem moves
  · rintro ⟨mem, unreadable⟩
    rcases letters with isT | isH | isD
    · exact .inl (.inl (.inl ⟨mem, isT, unreadable⟩))
    · exact .inl (.inl (.inr ⟨w, mem, rfl, .inl isH, unreadable⟩))
    · exact .inl (.inl (.inr ⟨w, mem, rfl, .inr isD, unreadable⟩))

end

/-! ### Operations -/

theorem Role.le_of_ofMCode {code : Option Nat} (known : ofMCode code ≠ .unknownMCode) :
    ∃ n, code = some n ∧ n ≤ 30 := by
  rcases code with _ | n
  · exact absurd rfl known
  · refine ⟨n, rfl, ?_⟩
    by_contra large
    have inert : n ∉ inertMCodes := by
      simp only [inertMCodes, List.mem_cons, List.not_mem_nil, or_false]
      omega
    have unset : Setting.ofMCode? n = none := by
      unfold Setting.ofMCode?
      split <;> first | omega | rfl
    exact known (by rw [ofMCode, if_neg inert, unset])

/-- **A word that does something has a code that was written**: the codes end far below the
    limit. -/
theorem Role.standsFor_of_known {w : Word Float} (mode : w.letter = 'G' ∨ w.letter = 'M')
    (known : Role.of w ≠ .passthrough ∧ Role.of w ≠ .unknownMCode) :
    ∃ n, codeNumber? w.value = some n ∧ StandsFor n w.value := by
  have small : ∃ n, codeNumber? w.value = some n ∧ n ≤ 99 := by
    rcases mode with isG | isM
    · have role : Role.of w = ofGCode (codeNumber? w.value) := if_pos isG
      rw [role, Ne, ofGCode_eq_passthrough_iff] at known
      push Not at known
      obtain ⟨⟨n, code, mem⟩, -⟩ := known
      have bound : ∀ n ∈ gCodes, n ≤ 99 := by decide
      exact ⟨n, code, bound n mem⟩
    · have role : Role.of w = ofMCode (codeNumber? w.value) := by simp [Role.of, isM]
      obtain ⟨n, code, le⟩ := le_of_ofMCode (role ▸ known.2)
      exact ⟨n, code, by omega⟩
  obtain ⟨n, code, le⟩ := small
  obtain ⟨stands, limit⟩ := standsFor_iff code
  refine ⟨n, code, stands.mpr fun beyond => ?_⟩
  have last : registerLimit = 4294967295 := rfl
  have := limit beyond
  omega

/-! ### Lines -/

/-- What an outcome makes of the numbers on its line. -/
structure Outcome.TakesNumbers (words : List (Word Float)) (outcome : Outcome Float) : Prop where
  /-- A register has the number that was written last, or the value is reported. -/
  selects : ∀ r ∈ Register.numbered, ∀ value, Word.last? r.letter words = some value →
    ¬IsBeyond value →
    (∃ n, outcome.state.register r = .inr n ∧ StandsFor n value) ∨
      .invalidValue (.of r.letter value) ∈ outcome.findings
  /-- A number beyond the limit selects the last register instead, without a report. -/
  beyond : ∀ r ∈ Register.numbered, ∀ value, Word.last? r.letter words = some value →
    IsBeyond value →
    outcome.state.register r = .inr registerLimit ∧ ¬StandsFor registerLimit value ∧
      .invalidValue (.of r.letter value) ∉ outcome.findings
  executes : ∀ w ∈ words, w.letter = 'G' ∨ w.letter = 'M' →
    Role.of w ≠ .passthrough ∧ Role.of w ≠ .unknownMCode →
    ∃ n, codeNumber? w.value = some n ∧ StandsFor n w.value
  /-- The number by which findings name a code. -/
  names : ∀ w ∈ words, ∀ n, codeNumber? w.value = some n →
    Finding.codeText w.value = toString n ∧ (StandsFor n w.value ↔ ¬IsBeyond w.value) ∧
      (IsBeyond w.value → n = registerLimit)

/-- **What is selected, done and told is what was written**, up to the limit of registers. -/
theorem State.takesNumbers_apply (old : State Float) (words : List (Word Float)) :
    (old.apply words).TakesNumbers words where
  selects r numbered value last within := by
    rcases code : codeNumber? value with _ | n
    · obtain ⟨front, w, back, split, letter, rfl, -⟩ := Word.exists_last last
      have mem : w ∈ words := by simp [split]
      rw [← letter, Word.of_letter_value]
      exact .inr ((State.invalidValue_mem_iff old numbered letter).mpr ⟨mem, code⟩)
    · have register := State.register_apply_of_last old numbered last code
      exact .inl ⟨n, register, (standsFor_iff code).1.mpr within⟩
  beyond r numbered value last beyond := by
    refine ⟨State.register_apply_of_last old numbered last beyond.codeNumber?_eq,
      not_standsFor_registerLimit beyond, fun reported => ?_⟩
    have letter : (Word.of r.letter value).letter = r.letter := by cases r <;> rfl
    have unreadable := ((State.invalidValue_mem_iff old numbered letter).mp reported).2
    cases beyond.codeNumber?_eq.symm.trans unreadable
  executes w _ mode known := Role.standsFor_of_known mode known
  names w _ n code := by
    obtain ⟨stands, limit⟩ := standsFor_iff code
    refine ⟨?_, stands, limit⟩
    rw [Finding.codeText, code]

/-- One more than the largest register number selects that register, and nothing tells. -/
theorem State.beyond_registers :
    let words : List (Word Float) := (Line.read "G43 H4294967296").words
    let outcome := State.initial.apply words
    Word.last? 'H' words = some 4294967296.0 ∧
      ¬((∃ n, outcome.state.register .length = .inr n ∧ StandsFor n 4294967296.0) ∨
        .invalidValue (.of 'H' 4294967296.0) ∈ outcome.findings) ∧
      codeNumber? (4294967296.0 : Float) = some 4294967295 ∧
      ¬StandsFor 4294967295 4294967296.0 := by
  intro words outcome
  have register : outcome.state.register .length = .inr 4294967295 := by decide +kernel
  have apart : ¬StandsFor 4294967295 4294967296.0 := by decide +kernel
  refine ⟨by decide +kernel, ?_, by decide +kernel, apart⟩
  rintro (⟨n, selected, stands⟩ | reported)
  · rw [register] at selected
    obtain rfl := Sum.inr.inj selected
    exact apart stands
  · have silent : outcome.findings = [] := by decide +kernel
    rw [silent] at reported
    cases reported

end NumericalControl
