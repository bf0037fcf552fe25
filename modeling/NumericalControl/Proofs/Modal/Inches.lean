/-
  NumericalControl/Proofs/Modal/Inches.lean
  =========================================
  **Inches are millimetres, converted word by word.**  A line in inches asks for the same as
  the line in millimetres in which every length is multiplied by 25.4: coordinates of the
  linear axes, offsets of an arc's center, R, and the feed (`Word.inMillimetres`).  Angles,
  pauses, speeds and all numbers of codes and registers stay.

  Lengths are scaled in two readings, the feed in the second and the rest in the third.  So
  each of them is compared for the two lines: the registers word by word
  (`applyRegister_inMillimetres`), the axes and the arc by the last word of each letter.
  The conversion has to keep the sign of a feed, for a feed below zero is left out.
-/
import NumericalControl.Proofs.Modal.Values
import NumericalControl.Proofs.Modal.Passthrough

namespace NumericalControl

/-- The letters whose values are lengths. -/
def lengthLetters : List Char := ['X', 'Y', 'Z', 'F', 'I', 'J', 'K', 'R']

/-- The value of a word in millimetres, when the line gives it in inches. -/
def millimetresOf (letter : Char) (value : Float) : Float :=
  if letter ∈ lengthLetters then value * 25.4 else value

/-- The word that says in millimetres what the word says in inches. -/
def Word.inMillimetres : Word Float → Word Float := Word.revalued millimetresOf

theorem keepsValues_millimetresOf :
    KeepsValues millimetresOf ['G', 'M', 'T', 'P', 'S', 'H', 'D'] := by
  have apart : ∀ letter ∈ ['G', 'M', 'T', 'P', 'S', 'H', 'D'], letter ∉ lengthLetters := by
    simp [lengthLetters]
  exact fun letter mem _ => if_neg (apart letter mem)

theorem keepsCodes_millimetresOf : KeepsValues millimetresOf ['G', 'M', 'T'] :=
  keepsValues_millimetresOf.mono (by simp)

theorem millimetresOf_of_length {letter : Char} (length : letter ∈ lengthLetters) :
    millimetresOf letter = (· * 25.4) :=
  funext fun _ => if_pos length

theorem Binary64.nonneg_inches_iff (x : Float) : (0.0 : Float) ≤ x * 25.4 ↔ (0.0 : Float) ≤ x := by
  have inch : (25.4 : Float).toModel.unpack =
    .finite .positive 7149464408450662 (-48) (by decide) := rfl
  exact Binary64.nonneg_mul_iff inch (by decide) (by decide) x

namespace State

/-! ### Registers -/

theorem applyRegister_of_ne_feed {α : Type} [Scalar α] {w : Word α} (other : w.letter ≠ 'F')
    (scale scale' : α) (s : State α) : s.applyRegister scale w = s.applyRegister scale' w := by
  simp only [applyRegister, if_neg other]

theorem applyRegister_inMillimetres (s : State Float) (w : Word Float) :
    s.applyRegister Units.millimetres.scale w.inMillimetres =
      s.applyRegister Units.inches.scale w := by
  by_cases feed : w.letter = 'F'
  · have letter : w.inMillimetres.letter = 'F' := feed
    have value : w.inMillimetres.value = w.value * 25.4 := by
      change millimetresOf w.letter w.value = w.value * 25.4
      rw [feed, millimetresOf_of_length (by decide)]
    rw [applyRegister, applyRegister, if_pos letter, if_pos feed, value, Units.scale, Units.scale]
    simp only [Binary64.nonneg_inches_iff, Binary64.mul_one]
  · rw [applyRegister_of_ne_feed feed _ Units.millimetres.scale]
    have apart : ∀ letter ∈ ['F', 'S', 'H', 'D'], letter ≠ 'F' → letter ∉ lengthLetters := by
      simp [lengthLetters]
    refine applyRegister_revalued (fun register => ?_) _ s
    exact Word.ext rfl (if_neg (apart _ register feed))

theorem foldl_applyRegister_inMillimetres (words : List (Word Float)) (s : State Float) :
    (words.map Word.inMillimetres).foldl (applyRegister Units.millimetres.scale) s =
      words.foldl (applyRegister Units.inches.scale) s := by
  simp only [List.foldl_map, applyRegister_inMillimetres]

end State

/-! ### Axes and arcs -/

theorem ArcWords.ofWords_inMillimetres (words : List (Word Float)) :
    ofWords Units.millimetres.scale (words.map Word.inMillimetres) =
      ofWords Units.inches.scale words := by
  have length : ∀ letter ∈ lengthLetters, Word.last? letter (words.map Word.inMillimetres) =
      (Word.last? letter words).map (· * 25.4) := by
    intro letter length
    rw [Word.inMillimetres, Word.last?_revalued, millimetresOf_of_length length]
  rw [ofWords_millimetres, length 'I' (by decide), length 'J' (by decide),
    length 'K' (by decide), length 'R' (by decide)]
  rfl

theorem AxisWords.ofWords_inMillimetres (words : List (Word Float)) :
    ofWords Units.millimetres.scale (words.map Word.inMillimetres) =
      ofWords Units.inches.scale words := by
  funext axis
  rw [ofWords_millimetres, ofWords_eq, Word.inMillimetres, Word.last?_revalued]
  cases axis <;> rfl

/-! ### Lines -/

theorem State.motionLine_units {α : Type} [Scalar α] (units : Units) (s : State α)
    (request : Request α) (axes : AxisWords α) (words : List (Word α)) :
    (((Setting.units units).apply s).motionLine request axes words).state =
        (Setting.units units).apply (s.motionLine request axes words).state ∧
      (((Setting.units units).apply s).motionLine request axes words).request =
        (s.motionLine request axes words).request := by
  simp only [motionLine, drillLine, Setting.apply]
  repeat' split
  all_goals exact ⟨rfl, rfl⟩

namespace State

variable {words : List (Word Float)} (unset : ∀ w ∈ words, w.sets .units = false)
  (s : State Float)

include unset

theorem applyModes_units (units : Units) :
    ((Setting.units units).apply s).applyModes words =
      (Setting.units units).apply (s.applyModes words) :=
  applyModes_setting (by simp [Setting.group]) unset s

theorem applyModes_inMillimetres (units : Units) :
    ((Setting.units units).apply s).applyModes (words.map Word.inMillimetres) =
      (Setting.units units).apply (s.applyModes words) := by
  rw [Word.inMillimetres, applyModes_revalued keepsCodes_millimetresOf, applyModes_units unset]

theorem read_inches :
    ((Setting.units .inches).apply s).read words = (Setting.units .inches).apply
      (words.foldl (applyRegister Units.inches.scale) (s.applyModes words)) := by
  rw [read, applyModes_units unset]
  exact foldl_applyRegister_setting (.units .inches) _ words _

theorem read_inMillimetres :
    ((Setting.units .millimetres).apply s).read (words.map Word.inMillimetres) =
      (Setting.units .millimetres).apply
        (words.foldl (applyRegister Units.inches.scale) (s.applyModes words)) := by
  rw [read, applyModes_inMillimetres unset]
  refine Eq.trans ?_ (foldl_applyRegister_setting (.units .millimetres) _ words _)
  exact foldl_applyRegister_inMillimetres words _

theorem asked_inMillimetres :
    ((Setting.units .millimetres).apply s).asked (words.map Word.inMillimetres) =
      ((Setting.units .inches).apply s).asked words := by
  have pause := keepsValues_millimetresOf.mono (show ['P'] ⊆ _ by simp)
  rw [asked, asked, applyModes_inMillimetres unset, applyModes_units unset]
  change Request.mk none s.position s.position (.ofWords Units.millimetres.scale _) none _ =
    Request.mk none s.position s.position (.ofWords Units.inches.scale _) none _
  rw [ArcWords.ofWords_inMillimetres, Word.inMillimetres,
    asksForDwell_revalued keepsCodes_millimetresOf, dwellTime?_revalued pause]

end State

/-- **A line in inches asks for the same as the converted line in millimetres**, and leaves
    the same memory apart from the unit, in any memory and whatever the line does. -/
theorem State.apply_inMillimetres {words : List (Word Float)}
    (unset : ∀ w ∈ words, w.sets .units = false) (s : State Float) :
    let inches := { s with units := .inches }.apply words
    let millimetres := { s with units := .millimetres }.apply (words.map Word.inMillimetres)
    millimetres.request = inches.request ∧
      inches.state.units = .inches ∧
      millimetres.state = { inches.state with units := .millimetres } := by
  intro inches millimetres
  let read := words.foldl (State.applyRegister Units.inches.scale) (s.applyModes words)
  let axes : AxisWords Float := .ofWords Units.inches.scale words
  let request := ((Setting.units .inches).apply s).asked words
  have hInches : ((Setting.units .inches).apply s).moved words =
      ((Setting.units .inches).apply read).motionLine request axes words := by
    rw [State.moved, State.read_inches unset, State.applyModes_units unset]
    rfl
  have hMillimetres :
      ((Setting.units .millimetres).apply s).moved (words.map Word.inMillimetres) =
        ((Setting.units .millimetres).apply read).motionLine request axes words := by
    rw [State.moved, State.read_inMillimetres unset, State.applyModes_inMillimetres unset,
      State.asked_inMillimetres unset]
    refine Eq.trans ?_ (State.motionLine_revalued keepsCodes_millimetresOf _ _ _ _)
    exact congrArg (State.motionLine _ _ · _) (AxisWords.ofWords_inMillimetres words)
  obtain ⟨state, asks⟩ := State.motionLine_units .inches read request axes words
  obtain ⟨state', asks'⟩ := State.motionLine_units .millimetres read request axes words
  rw [← hInches] at state asks
  rw [← hMillimetres] at state' asks'
  have unit : inches.state = (Setting.units .inches).apply _ :=
    (State.apply_eq_moved _ words).1.trans state
  refine ⟨asks'.trans asks.symm, by rw [unit]; rfl, ?_⟩
  rw [unit]
  exact (State.apply_eq_moved _ _).1.trans state'

/-- A relative arc with a turn of the table, a new feed and a register. -/
theorem State.apply_inMillimetres_arc :
    let words : List (Word Float) := (Line.read "G91 G2 X4 A90 I2 J-0.5 F10 S300 H7").words
    let inches := { (State.initial : State Float) with units := .inches }.apply words
    let millimetres :=
      { (State.initial : State Float) with units := .millimetres }.apply
        (words.map Word.inMillimetres)
    (∀ w ∈ words, w.sets .units = false) ∧
      (millimetres.request = inches.request ∧ inches.state.units = .inches ∧
        millimetres.state = { inches.state with units := .millimetres }) ∧
      millimetres.state.feedRate = 254.0 ∧ millimetres.state.position.a = 90.0 := by
  intro words inches millimetres
  have unset : ∀ w ∈ words, w.sets .units = false := by decide +kernel
  exact ⟨unset, State.apply_inMillimetres unset .initial, by decide +kernel⟩

end NumericalControl
