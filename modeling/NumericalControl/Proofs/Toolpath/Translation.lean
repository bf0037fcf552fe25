/-
  NumericalControl/Proofs/Toolpath/Translation.lean
  =================================================
  **Toolpaths move with their work offsets.**  Two builders read the same program, and all
  work offsets of the second are those of the first moved by one vector.  Then so are all its
  positions, from the cursor before the first line on, and everything else is the same: what
  a command measures it measures between positions, and the stroke of a move is decided in
  the program, which knows of no offset (`Builder.Moved`).

  An offset that the table lacks moves nothing, in either table.  So the table must have
  every offset that is in force after a line, and the one that is in force at first.
-/
import NumericalControl.Proofs.Toolpath.ArcOffset
import NumericalControl.Proofs.Toolpath.Flags
import NumericalControl.Proofs.Toolpath.Refusal
import NumericalControl.Proofs.Toolpath.Stream
import NumericalControl.Proofs.Translation

namespace NumericalControl

/-! ### Offsets -/

/-- The same names and tools, and every work offset moved by the vector. -/
structure Offsets.Moved (v : Position ℝ) (offsets offsets' : Offsets ℝ) : Prop where
  work : ∀ name, offsets'.work.get? name = (offsets.work.get? name).map (·.add v)
  tool : offsets'.tool = offsets.tool

namespace Offsets.Moved

variable {v : Position ℝ} {offsets offsets' : Offsets ℝ} (moved : offsets.Moved v offsets')
  {s : State ℝ} (known : offsets.work.contains s.workOffset = true)

include moved known

theorem shift_eq : offsets'.shift s = (offsets.shift s).add v := by
  obtain ⟨shift, found⟩ := Option.isSome_iff_exists.mp known
  unfold Offsets.shift WorkOffsets.shift
  rw [moved.work, found]
  rfl

theorem displacement_eq (stroke : Stroke) :
    offsets'.displacement s stroke = (offsets.displacement s stroke).add v := by
  unfold Offsets.displacement
  rw [moved.shift_eq known, moved.tool]
  split
  · refine Position.ext_get fun axis => ?_
    rw [Position.get_add]
    by_cases along : axis = s.plane.normal
    · subst along
      rw [Position.get_set_self, Position.get_set_self, Position.get_add]
      cases stroke with
      | approach => exact add_sub_right_comm _ _ _
      | retract => exact add_right_comm _ _ _
    · rw [Position.get_set_of_ne _ along, Position.get_set_of_ne _ along, Position.get_add]
  · rfl

theorem toMachine_eq (p : Position ℝ) (stroke : Stroke) :
    offsets'.toMachine p s stroke = (offsets.toMachine p s stroke).add v := by
  refine Position.ext_get fun axis => ?_
  rw [Offsets.toMachine_eq_add, Offsets.toMachine_eq_add, moved.displacement_eq known]
  simp only [Position.get_add, add_assoc]

theorem centerToMachine_eq (center : ℝ × ℝ) :
    offsets'.centerToMachine center s = offsets.centerToMachine center s + s.plane.coords v := by
  unfold Offsets.centerToMachine
  dsimp only
  rw [moved.shift_eq known, Position.get_add, Position.get_add, ← add_assoc, ← add_assoc]
  rfl

end Offsets.Moved

theorem Offsets.Moved.cutterReport?_eq {v : Position ℝ} {offsets offsets' : Offsets ℝ}
    (moved : offsets.Moved v offsets') (s : State ℝ) :
    offsets'.cutterReport? s = offsets.cutterReport? s := by
  unfold Offsets.cutterReport?
  rw [moved.tool]

/-! ### Commands -/

/-- The command with its positions moved, and all else as it is. -/
noncomputable def Command.translated (v : Position ℝ) (c : Command ℝ) : Command ℝ :=
  { c with
    start := c.start.add v
    target := c.target.add v
    arc := c.arc.map (Arc.translated v)
    bounds := c.bounds.translated v }

noncomputable def Totals.translated (v : Position ℝ) (totals : Totals ℝ) : Totals ℝ :=
  { totals with bounds := totals.bounds.map (Box.translated v) }

theorem Totals.addMove_translated (v : Position ℝ) (totals : Totals ℝ) (isRapid : Bool)
    (length rotaryTravel duration : ℝ) (bounds : Box ℝ) :
    (totals.translated v).addMove isRapid length rotaryTravel duration (bounds.translated v) =
      (totals.addMove isRapid length rotaryTravel duration bounds).translated v := by
  unfold Totals.addMove Totals.translated
  cases totals.bounds with
  | none => rfl
  | some box =>
    dsimp only [Option.map_some]
    rw [Box.union_translated]

theorem Totals.addDwell_translated (v : Position ℝ) (totals : Totals ℝ) (dwell : Option ℝ) :
    (totals.translated v).addDwell dwell = (totals.addDwell dwell).translated v := by
  cases dwell <;> rfl

namespace Builder

/-- The second builder has taken the same lines as the first, and is moved by the vector. -/
structure Moved (v : Position ℝ) (b b' : Builder ℝ) : Prop where
  machine : b'.setup.machine = b.setup.machine
  offsets : b.setup.offsets.Moved v b'.setup.offsets
  state : b'.state = b.state
  commands : b'.commands = b.commands.map (Command.translated v)
  line : b'.line = b.line
  cursor : b'.cursor = b.cursor.add v
  stroke : b'.stroke = b.stroke
  totals : b'.totals = b.totals.translated v

variable {v : Position ℝ} {b b' : Builder ℝ}

theorem Moved.strokeOf_eq (moved : b.Moved v b') (after : State ℝ) (segment : Segment ℝ) :
    b'.strokeOf after segment = b.strokeOf after segment := by
  unfold strokeOf
  rw [moved.stroke]

/-- **A segment is carried over to the translated command.** -/
theorem Moved.commandOf_eq (moved : b.Moved v b') {after : State ℝ} {segment : Segment ℝ}
    (known : b.setup.offsets.work.contains after.workOffset = true)
    (plane : ∀ arc, segment.arc = some arc → arc.plane = after.plane) (source : String) :
    b'.commandOf source after segment = (b.commandOf source after segment).translated v := by
  have target := moved.offsets.toMachine_eq known segment.target (b.strokeOf after segment)
  have arc : (segment.arc.map fun arc =>
        arc.rebased (b'.setup.offsets.centerToMachine arc.center after) (b.cursor.add v)
          ((b.setup.offsets.toMachine segment.target after (b.strokeOf after segment)).add v)) =
      (segment.arc.map fun arc =>
        arc.rebased (b.setup.offsets.centerToMachine arc.center after) b.cursor
          (b.setup.offsets.toMachine segment.target after (b.strokeOf after segment))).map
        (Arc.translated v) := by
    rw [Option.map_map]
    refine Option.map_congr fun arc harc => ?_
    rw [moved.offsets.centerToMachine_eq known, ← plane arc harc]
    exact Arc.rebased_translated v arc _ _ _
  -- all else is measured between positions, which are moved alike
  unfold commandOf Command.translated
  dsimp only
  rw [moved.strokeOf_eq, target, moved.cursor, arc, moved.machine, moved.line, moved.commands,
    moved.totals, moved.offsets.cutterReport?_eq, moveBounds_translated,
    Position.rotaryDistance_translated, Position.linearDistance_translated, Array.size_map]
  cases segment.arc <;> rfl

theorem Moved.addSegment (moved : b.Moved v b') {after : State ℝ} {segment : Segment ℝ}
    (known : b.setup.offsets.work.contains after.workOffset = true)
    (plane : ∀ arc, segment.arc = some arc → arc.plane = after.plane) (source : String) :
    (b.addSegment source after segment).Moved v (b'.addSegment source after segment) := by
  have command := moved.commandOf_eq known plane source
  constructor
  case machine => exact moved.machine
  case offsets => exact moved.offsets
  case state => exact moved.state
  case line => exact moved.line
  case commands =>
    change b'.commands.push (b'.commandOf source after segment) =
      (b.commands.push (b.commandOf source after segment)).map (Command.translated v)
    rw [command, moved.commands, Array.map_push]
  case cursor => exact congrArg Command.target command
  case stroke => exact moved.strokeOf_eq after segment
  case totals =>
    let c := b'.commandOf source after segment
    change b'.totals.addMove c.isRapid c.length c.rotaryTravel c.duration c.bounds = _
    rw [show c = _ from command, moved.totals]
    exact Totals.addMove_translated v b.totals _ _ _ _ _

theorem Moved.foldl_addSegment (moved : b.Moved v b') {after : State ℝ}
    {segments : List (Segment ℝ)} (known : b.setup.offsets.work.contains after.workOffset = true)
    (plane : ∀ segment ∈ segments, ∀ arc, segment.arc = some arc → arc.plane = after.plane)
    (source : String) :
    (segments.foldl (Builder.addSegment source after) b).Moved v
      (segments.foldl (Builder.addSegment source after) b') := by
  induction segments generalizing b b' with
  | nil => exact moved
  | cons segment rest ih =>
    have next := moved.addSegment known (plane segment List.mem_cons_self) source
    exact ih next known fun segment mem => plane segment (List.mem_cons_of_mem _ mem)

/-- Findings and pauses keep builders in step. -/
theorem Moved.paused (moved : b.Moved v b') (findings findings' : List (Finding ℝ))
    (dwell : Option ℝ) :
    { b.note findings with totals := (b.note findings).totals.addDwell dwell }.Moved v
      { b'.note findings' with totals := (b'.note findings').totals.addDwell dwell } := by
  constructor
  case machine => exact moved.machine
  case offsets => exact moved.offsets
  case state => exact moved.state
  case commands => exact moved.commands
  case line => exact moved.line
  case cursor => exact moved.cursor
  case stroke => exact moved.stroke
  case totals =>
    change b'.totals.addDwell dwell = (b.totals.addDwell dwell).translated v
    rw [moved.totals, Totals.addDwell_translated]

theorem Moved.remember (moved : b.Moved v b') (after : State ℝ) :
    { b with state := after }.Moved v { b' with state := after } :=
  ⟨moved.machine, moved.offsets, rfl, moved.commands, moved.line, moved.cursor, moved.stroke,
    moved.totals⟩

theorem Moved.addWords (moved : b.Moved v b') {words : List (Word ℝ)}
    (known : b.setup.offsets.work.contains (b.state.apply words).state.workOffset = true)
    (source : String) : (b.addWords source words).Moved v (b'.addWords source words) := by
  unfold Builder.addWords
  dsimp only
  rw [moved.state, moved.machine]
  refine ((moved.paused _ _ _).foldl_addSegment known ?_ source).remember _
  exact fun segment mem => (Segment.fits_ofRequest mem).plane

/-- **Taking a line keeps builders in step**, when the offset after it is in the table. -/
theorem Moved.takeLine (moved : b.Moved v b') {text : String}
    (known : b.setup.offsets.work.contains
      (b.state.apply (Line.read text).words).state.workOffset = true) :
    (b.takeLine text).Moved v (b'.takeLine text) := by
  have counted (findings : List (Finding ℝ)) : ({ b with line := b.line + 1 }.note findings).Moved v
      ({ b' with line := b'.line + 1 }.note findings) := by
    rw [moved.line]
    exact ⟨moved.machine, moved.offsets, moved.state, moved.commands, rfl, moved.cursor,
      moved.stroke, moved.totals⟩
  unfold Builder.takeLine
  dsimp only
  split
  · exact counted _
  · exact (counted _).addWords known _

/-- Builders stay in step over lines after each of which the offset is in the table. -/
theorem Moved.foldl_takeLine (moved : b.Moved v b') (settled : b.state.Settled)
    {lines : List String}
    (known : ∀ outcome ∈ b.state.outcomes lines,
      b.setup.offsets.work.contains outcome.state.workOffset = true) :
    (lines.foldl Builder.takeLine b).Moved v (lines.foldl Builder.takeLine b') := by
  induction lines generalizing b b' with
  | nil => exact moved
  | cons text rest ih =>
    have next := moved.takeLine (known _ List.mem_cons_self)
    refine ih next (settled_takeLine settled text) fun outcome mem => ?_
    rw [(steps_takeLine b text).setup_eq]
    rw [state_takeLine settled] at mem
    exact known outcome (List.mem_cons_of_mem _ mem)

theorem moved_of_start {setup setup' : Setup ℝ} (started : start setup = .ok b)
    (started' : start setup' = .ok b') (machine : setup'.machine = setup.machine)
    (moved : setup.offsets.Moved v setup'.offsets)
    (known : setup.offsets.work.contains initialWorkOffset = true) : b.Moved v b' := by
  have origin : setup.offsets.work.contains (State.initial : State ℝ).workOffset = true := known
  obtain ⟨-, rfl⟩ := eq_of_start started
  obtain ⟨-, rfl⟩ := eq_of_start started'
  constructor
  case machine => exact machine
  case offsets => exact moved
  case state => rfl
  case commands => exact Array.map_empty.symm
  case line => rfl
  case cursor => exact moved.toMachine_eq origin .zero .approach
  case stroke => rfl
  case totals => rfl

end Builder

namespace Toolpath

/-- The second toolpath is the first, moved by the vector. -/
structure Moved (v : Position ℝ) (path path' : Toolpath ℝ) : Prop where
  commands : path'.commands = path.commands.map (Command.translated v)
  stats : path'.stats =
    { path.stats with boundingBox := path.stats.boundingBox.translated v }

/-- Builders in step give toolpaths in step. -/
theorem moved_of_finish {v : Position ℝ} {b b' : Builder ℝ} {path path' : Toolpath ℝ}
    (moved : b.Moved v b') (h : b.finish = .ok path) (h' : b'.finish = .ok path') :
    path.Moved v path' := by
  obtain ⟨commands, -⟩ := Builder.toolpath_of_finish h
  obtain ⟨commands', -⟩ := Builder.toolpath_of_finish h'
  obtain ⟨box, bounds, stats⟩ := Builder.stats_of_finish h
  obtain ⟨box', bounds', stats'⟩ := Builder.stats_of_finish h'
  constructor
  · rw [commands, commands', moved.commands]
  · rw [moved.totals, Totals.translated, bounds] at bounds'
    obtain rfl : box.translated v = box' := Option.some.inj bounds'
    rw [stats, stats', moved.totals, moved.commands, Array.size_map]
    rfl

variable {setup setup' : Setup ℝ} {v : Position ℝ} {text : String}

/-- What keeps a program from building does not depend on offsets. -/
theorem fault?_of_machine {α : Type} [Scalar α] {setup setup' : Setup α}
    (machine : setup'.machine = setup.machine) (text : String) :
    fault? setup' text = fault? setup text := by
  unfold fault?
  rw [machine]

/-- **Moving all work offsets moves the toolpath.**  Both programs fail alike, and where they
    do not, all that the vector touches are positions. -/
theorem moved_of_build (machine : setup'.machine = setup.machine)
    (moved : setup.offsets.Moved v setup'.offsets)
    (origin : setup.offsets.work.contains initialWorkOffset = true)
    (selected : ∀ outcome ∈ (State.initial : State ℝ).outcomes (programLines text),
      setup.offsets.work.contains outcome.state.workOffset = true) :
    (∀ fault, Toolpath.build setup' text = .error fault ↔
        Toolpath.build setup text = .error fault) ∧
      ∀ path, Toolpath.build setup text = .ok path →
        ∃ path', Toolpath.build setup' text = .ok path' ∧ path.Moved v path' := by
  constructor
  · intro fault
    rw [build_eq_error_iff, build_eq_error_iff, fault?_of_machine machine]
  · intro path built
    obtain ⟨path', built'⟩ : ∃ path', Toolpath.build setup' text = .ok path' := by
      rw [exists_build_iff, fault?_of_machine machine]
      exact exists_build_iff.mp ⟨path, built⟩
    obtain ⟨b, started, finished⟩ := run_of_build built
    obtain ⟨b', started', finished'⟩ := run_of_build built'
    have first := Builder.moved_of_start started started' machine moved origin
    have known : ∀ outcome ∈ b.state.outcomes (programLines text),
        b.setup.offsets.work.contains outcome.state.workOffset = true := by
      obtain ⟨-, rfl⟩ := Builder.eq_of_start started
      exact selected
    have taken := first.foldl_takeLine (Builder.settled_of_start started) known
    exact ⟨path', built', moved_of_finish taken finished finished'⟩

/-- A circle whose line takes up another work offset. -/
theorem moved_circle :
    let table (first second : Position ℝ) : WorkOffsets ℝ :=
      (WorkOffsets.empty.insert "G54" first).insert "G55" second
    let v : Position ℝ := ⟨3, -4, 5, 90, 0⟩
    let setup : Setup ℝ := ⟨.ofRapidFeed 5000, table ⟨100, 0, 0, 0, 0⟩ ⟨0, 50, 0, 0, 0⟩, .empty⟩
    let setup' : Setup ℝ :=
      ⟨.ofRapidFeed 5000, table (.add ⟨100, 0, 0, 0, 0⟩ v) (.add ⟨0, 50, 0, 0, 0⟩ v), .empty⟩
    ∃ path path' c arc, Toolpath.build setup circleText = .ok path
      ∧ Toolpath.build setup' circleText = .ok path'
      ∧ path.commands[0]? = some c ∧ c.arc = some arc ∧ path.Moved v path' := by
  intro table v setup setup'
  have machine : setup'.machine = setup.machine := rfl
  have moved : setup.offsets.Moved v setup'.offsets := by
    refine ⟨fun name => ?_, rfl⟩
    dsimp only [setup, setup', table]
    rw [WorkOffsets.get?_insert, WorkOffsets.get?_insert, WorkOffsets.get?_insert,
      WorkOffsets.get?_insert]
    split_ifs <;> rfl
  have origin : setup.offsets.work.contains initialWorkOffset = true := rfl
  have taken : setup.offsets.work.contains "G55" = true := rfl
  have selected : ∀ outcome ∈ (State.initial : State ℝ).outcomes (programLines circleText),
      setup.offsets.work.contains outcome.state.workOffset = true := by
    have lines : programLines circleText = [circleText] := by decide +kernel
    obtain ⟨findings, applied⟩ := apply_circle
    intro outcome mem
    rw [lines] at mem
    simp only [State.outcomes, words_circle, applied] at mem
    obtain rfl := List.mem_singleton.mp mem
    exact taken
  obtain ⟨path, c, arc, -, built, hc, harc, -⟩ := exists_circle setup.offsets
  obtain ⟨path', built', both⟩ := (moved_of_build machine moved origin selected).2 path built
  exact ⟨path, path', c, arc, built, built', hc, harc, both⟩

end Toolpath

end NumericalControl
