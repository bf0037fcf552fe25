/-
  NumericalControl/Proofs/Toolpath/Flags.lean
  ===========================================
  **Flags leave the path alone.**  A toolpath without its flags (`Toolpath.bare`) keeps the
  numbers, places, feeds and times of its commands and all totals, and forgets the texts,
  the spindle, the tool, the cutter and the findings.  Two programs that agree line by line
  beside flags, on setups that agree beside the diameters of cutters, lead to the same
  toolpath without flags, or fail for the same reason (`Toolpath.bare_build`).

  The two runs are compared step by step: builders that agree without flags agree again
  after each has taken its line.  A line that consists of flags is empty without them, and
  a builder passes over an empty line.  It could as well apply it, because the memory is
  settled (`Builder.bare_takeLine`), so the comparison needs one case only.
-/
import NumericalControl.Proofs.Modal.Flags
import NumericalControl.Proofs.Toolpath.Run
import NumericalControl.Scalar.Binary64

namespace NumericalControl

/-- Runs that agree under a view lead on to runs that agree under another, or fail for the
    same reason. -/
theorem map_bind_congr {ε σ τ β γ : Type} {view : σ → τ} {next : β → γ} {x y : Except ε σ}
    {f g : σ → Except ε β} (same : x.map view = y.map view)
    (step : ∀ s t, x = .ok s → y = .ok t → view s = view t → (f s).map next = (g t).map next) :
    (x >>= f).map next = (y >>= g).map next := by
  cases x with
  | error fault =>
    cases y with
    | error fault' =>
      cases same
      rfl
    | ok t => cases same
  | ok s =>
    cases y with
    | error fault => cases same
    | ok t => exact step s t rfl rfl (Except.ok.inj same)

variable {α : Type}

/-- A setup without the diameters of cutters. -/
def Setup.bare (setup : Setup α) : Setup α :=
  { setup with offsets.tool.diameters := .empty }

variable [Scalar α]

def Command.bare (c : Command α) : Command α :=
  { c with source := "", spindleSpeed := 0.0, cutter := none, state := c.state.bare }

def Toolpath.bare (path : Toolpath α) : Toolpath α :=
  { path with commands := path.commands.map Command.bare, diagnostics := #[] }

/-- The words of a line of text that are no flags. -/
def bareWords (text : String) : List (Word α) := Word.bare (Line.read text).words

namespace Builder

def bare (b : Builder α) : Builder α :=
  { b with
    setup := b.setup.bare
    state := b.state.bare
    commands := b.commands.map Command.bare
    diagnostics := #[] }

/-! ### One segment -/

theorem bare_commandOf (b : Builder α) (source : String) (after : State α)
    (segment : Segment α) :
    (b.commandOf source after segment).bare = b.bare.commandOf "" after.bare segment := by
  have index : b.bare.commands.size = b.commands.size := Array.size_map
  simp only [commandOf, index]
  rfl

theorem bare_addSegment (b : Builder α) (source : String) (after : State α)
    (segment : Segment α) :
    let command := b.bare.commandOf "" after.bare segment
    (b.addSegment source after segment).bare =
      { b.bare with
        commands := b.bare.commands.push command
        cursor := command.target
        stroke := b.bare.strokeOf after.bare segment
        totals := b.bare.totals.addMove command.isRapid command.length command.rotaryTravel
          command.duration command.bounds } := by
  intro command
  have commands : (b.commands.push (b.commandOf source after segment)).map Command.bare =
      b.bare.commands.push command := by
    rw [Array.map_push, bare_commandOf]
    rfl
  simp only [addSegment, bare, note, commands]
  rfl

variable {b other : Builder α}

theorem bare_foldl_addSegment {s t : State α} (h : b.bare = other.bare)
    (after : s.bare = t.bare) (source source' : String) (segments : List (Segment α)) :
    (segments.foldl (addSegment source s) b).bare =
      (segments.foldl (addSegment source' t) other).bare := by
  induction segments generalizing b other with
  | nil => exact h
  | cons segment rest ih =>
    refine ih ?_
    simp only [bare_addSegment, h, after]

/-! ### One line -/

theorem bare_pause (h : b.bare = other.bare) (dwell : Option α) :
    { b with totals := b.totals.addDwell dwell }.bare =
      { other with totals := other.totals.addDwell dwell }.bare :=
  congrArg (fun x : Builder α => { x with totals := x.totals.addDwell dwell }) h

theorem bare_remember {s t : State α} (h : b.bare = other.bare) (after : s.bare = t.bare) :
    { b with state := s }.bare = { other with state := t }.bare := by
  show { b.bare with state := s.bare } = { other.bare with state := t.bare }
  rw [h, after]

theorem bare_addWords (h : b.bare = other.bare) {words words' : List (Word α)}
    (same : Word.bare words = Word.bare words') (source source' : String) :
    (b.addWords source words).bare = (other.addWords source' words').bare := by
  have memory : b.state.bare = other.state.bare := congrArg Builder.state h
  have machine : b.setup.machine = other.setup.machine := congrArg (·.setup.machine) h
  obtain ⟨request, state⟩ := State.bare_apply_congr memory same
  have plane : (b.state.apply words).state.plane = (other.state.apply words').state.plane :=
    (congrArg State.plane state :)
  simp only [addWords, request, machine, plane]
  refine bare_remember (bare_foldl_addSegment (bare_pause ?_ _) state source source' _) state
  -- findings are forgotten
  exact h

theorem bare_addWords_nil (settled : b.state.Settled) (source : String) :
    (b.addWords source []).bare = b.bare := by
  simp only [addWords, State.apply_nil settled]
  rfl

/-- A line without words may be applied as well as passed over. -/
theorem bare_takeLine (settled : b.state.Settled) (text : String) :
    (b.takeLine text).bare =
      ({ b with line := b.line + 1 }.addWords "" (Line.read text).words).bare := by
  simp only [takeLine]
  split
  · rename_i empty
    have passed := bare_addWords_nil (b := { b with line := b.line + 1 }) settled ""
    rw [List.isEmpty_iff.mp empty]
    exact passed.symm
  · refine bare_addWords ?_ rfl _ _
    rfl

theorem bare_takeLine_congr (settled : b.state.Settled) (settled' : other.state.Settled)
    (h : b.bare = other.bare) {text text' : String}
    (same : bareWords (α := α) text = bareWords text') :
    (b.takeLine text).bare = (other.takeLine text').bare := by
  rw [bare_takeLine settled, bare_takeLine settled']
  have counted := congrArg (fun b : Builder α => { b with line := b.line + 1 }) h
  exact bare_addWords counted same _ _

theorem settled_takeLine (settled : b.state.Settled) (text : String) :
    (b.takeLine text).state.Settled := by
  simp only [takeLine]
  split
  · exact settled
  · exact State.settled_apply _ _

/-- The memory after a line is the one its words lead to, also where it has none. -/
theorem state_takeLine (settled : b.state.Settled) (text : String) :
    (b.takeLine text).state = (b.state.apply (Line.read text).words).state := by
  unfold Builder.takeLine
  dsimp only
  split
  · rename_i empty
    rw [List.isEmpty_iff.mp empty, State.apply_nil settled]
    rfl
  · rfl

/-! ### Programs -/

theorem bare_pushLine (settled : b.state.Settled) (settled' : other.state.Settled)
    (h : b.bare = other.bare) {text text' : String}
    (same : bareWords (α := α) text = bareWords text') :
    (b.pushLine text).map bare = (other.pushLine text').map bare := by
  have refusal : b.refusal? = other.refusal? := (congrArg refusal? h :)
  simp only [pushLine, refusal]
  split
  · rfl
  · exact congrArg Except.ok (bare_takeLine_congr settled settled' h same)

theorem bare_foldlM_pushLine {lines lines' : List String} (settled : b.state.Settled)
    (settled' : other.state.Settled) (h : b.bare = other.bare)
    (same : lines.map (bareWords (α := α)) = lines'.map bareWords) :
    (lines.foldlM pushLine b).map bare = (lines'.foldlM pushLine other).map bare := by
  induction lines generalizing lines' b other with
  | nil =>
    obtain rfl : lines' = [] := by simpa using same.symm
    exact congrArg Except.ok h
  | cons text rest ih =>
    cases lines' with
    | nil => simp at same
    | cons text' rest' =>
      obtain ⟨first, others⟩ := List.cons.inj same
      rw [List.foldlM_cons, List.foldlM_cons]
      refine map_bind_congr (bare_pushLine settled settled' h first) ?_
      intro next next' taken taken' agree
      obtain ⟨-, rfl⟩ := offer_of_pushLine taken
      obtain ⟨-, rfl⟩ := offer_of_pushLine taken'
      exact ih (settled_takeLine settled text) (settled_takeLine settled' text') agree others

theorem bare_finish (b : Builder α) : b.finish.map Toolpath.bare = b.bare.finish := by
  have count : b.bare.commands.size = b.commands.size := Array.size_map
  have bounds : b.bare.totals = b.totals := rfl
  simp only [finish, bounds, count]
  cases b.totals.bounds <;> rfl

theorem bare_start {setup setup' : Setup α} (same : setup.bare = setup'.bare) :
    (start setup).map bare = (start setup').map bare := by
  have machine : setup.machine = setup'.machine := (congrArg Setup.machine same :)
  have cursor : setup.offsets.toMachine .zero .initial .approach =
      setup'.offsets.toMachine .zero .initial .approach :=
    (congrArg (fun setup => setup.offsets.toMachine .zero .initial .approach) same :)
  simp only [start, machine, cursor]
  split
  · rfl
  · simp only [Except.map, bare, same]

theorem settled_of_start {setup : Setup α} (h : start setup = .ok b) : b.state.Settled := by
  obtain ⟨-, rfl⟩ := eq_of_start h
  exact State.settled_initial

end Builder

/-- **Flags leave the path alone**: setups that agree beside the diameters of cutters, and
    programs that agree line by line beside flags, lead to the same toolpath but for its
    flags, or to the same fault. -/
theorem Toolpath.bare_build {setup setup' : Setup α} {text text' : String}
    (machine : setup.machine = setup'.machine)
    (work : setup.offsets.work = setup'.offsets.work)
    (lengths : setup.offsets.tool.lengths = setup'.offsets.tool.lengths)
    (lines : (programLines text).map (bareWords (α := α)) =
      (programLines text').map bareWords) :
    (Toolpath.build setup text).map Toolpath.bare =
      (Toolpath.build setup' text').map Toolpath.bare := by
  have same : setup.bare = setup'.bare := by
    simp only [Setup.bare, machine, work, lengths]
  refine map_bind_congr (Builder.bare_start same) ?_
  intro b other started started' h
  have run := Builder.bare_foldlM_pushLine (Builder.settled_of_start started)
    (Builder.settled_of_start started') h lines
  refine map_bind_congr run ?_
  intro last last' _ _ agree
  rw [Builder.bare_finish, Builder.bare_finish, agree]

/-- The second line consists of flags, and the cutter of the first program has a radius. -/
theorem Toolpath.bare_build_cutter :
    let diameters : Table Nat (ToolOffset Float) := .insert .empty 1 ⟨10.0, 0.0⟩
    let setup : Setup Float := ⟨.ofRapidFeed 5000.0, .empty, .empty, diameters⟩
    let setup' : Setup Float := ⟨.ofRapidFeed 5000.0, .empty⟩
    let text := "G41 D1 G1 X1 F100 S500\nM3 T2\nX2"
    let text' := "G1 X1 F100\n\nN30 X2 G42 D7"
    (programLines text).map (bareWords (α := Float)) = (programLines text').map bareWords ∧
      (Toolpath.build setup text).map Toolpath.bare =
        (Toolpath.build setup' text').map Toolpath.bare ∧
      (Toolpath.build setup text).toOption.any (fun path => decide (path.size = 2)) = true := by
  intro diameters setup setup' text text'
  have lines : (programLines text).map (bareWords (α := Float)) =
      (programLines text').map bareWords := by
    decide +kernel
  exact ⟨lines, Toolpath.bare_build rfl rfl rfl lines, by decide +kernel⟩

end NumericalControl
