/-
  NumericalControl/Proofs/Toolpath/Totals.lean
  ============================================
  **Totals add up.**  A builder adds the measures of each command to its totals when it adds
  the command, so each distance is the sum over the commands that it counts, in their order
  (`Builder.Measured`).  Sums are those of the scalars, one summand after the other from
  zero.

  Time passes in pauses and in commands.  The line of a program first pauses, if it does,
  and then moves (`programEvents`).  A builder lives through these events one by one: a
  command starts at the sum of what has passed before it, and the clock is the sum of all
  (`Builder.Chronicle`).
-/
import NumericalControl.Proofs.Toolpath.Growth
import NumericalControl.Proofs.Toolpath.Pauses

namespace NumericalControl

/-- What takes time in a program. -/
inductive Event (α : Type) where
  | pause (seconds : α)
  | move (command : Command α)

namespace Event

variable {α : Type}

def seconds : Event α → α
  | pause seconds => seconds
  | move command => command.duration

def pause? : Event α → Option α
  | pause seconds => some seconds
  | move _ => none

def command? : Event α → Option (Command α)
  | pause _ => none
  | move command => some command

@[simp] theorem filterMap_pause_moves (commands : List (Command α)) :
    (commands.map move).filterMap pause? = [] := by
  rw [List.filterMap_map, List.filterMap_eq_nil_iff]
  exact fun _ _ => rfl

@[simp] theorem filterMap_command_moves (commands : List (Command α)) :
    (commands.map move).filterMap command? = commands := by
  rw [List.filterMap_map]
  exact List.filterMap_some

@[simp] theorem filterMap_pause_pauses (dwell : Option α) :
    (dwell.toList.map pause).filterMap pause? = dwell.toList := by
  cases dwell <;> rfl

@[simp] theorem filterMap_command_pauses (dwell : Option α) :
    (dwell.toList.map pause).filterMap command? = [] := by
  cases dwell <;> rfl

end Event

variable {α : Type} [Scalar α]

/-! ### Sums -/

/-- The sum of values, added one after the other from zero. -/
def total (values : List α) : α := values.foldl (· + ·) 0.0

theorem total_concat (values : List α) (v : α) : total (values ++ [v]) = total values + v := by
  rw [total, List.foldl_append]
  rfl

/-! ### The events of a program -/

/-- The events of a program with the given commands: line by line, the pause of the line and
    then its commands. -/
def programEvents (commands : List (Command α)) (lines : List String) : List (Event α) :=
  ((State.initial.outcomes lines).zipIdx 1).flatMap fun (outcome, line) =>
    outcome.request.dwell.toList.map .pause ++ (commands.filter (·.line == line)).map .move

section

variable {commands more : List (Command α)} {n line : Nat}

omit [Scalar α] in
theorem filter_earlier (own : ∀ c ∈ more, c.line = n + 1) (le : line ≤ n) :
    (commands ++ more).filter (·.line == line) = commands.filter (·.line == line) := by
  have later : more.filter (·.line == line) = [] := by
    rw [List.filter_eq_nil_iff]
    intro c mem
    rw [beq_iff_eq, own c mem]
    omega
  rw [List.filter_append, later, List.append_nil]

omit [Scalar α] in
theorem filter_own (below : ∀ c ∈ commands, c.line ≤ n) (own : ∀ c ∈ more, c.line = n + 1) :
    (commands ++ more).filter (·.line == n + 1) = more := by
  have earlier : commands.filter (·.line == n + 1) = [] := by
    rw [List.filter_eq_nil_iff]
    intro c mem
    have := below c mem
    rw [beq_iff_eq]
    omega
  have all : more.filter (·.line == n + 1) = more := by
    rw [List.filter_eq_self]
    intro c mem
    rw [beq_iff_eq, own c mem]
  rw [List.filter_append, earlier, all, List.nil_append]

end

/-- **A further line adds its own events** behind those of the lines before it. -/
theorem programEvents_concat {commands more : List (Command α)} {earlier : List String}
    (below : ∀ c ∈ commands, c.line ≤ earlier.length)
    (own : ∀ c ∈ more, c.line = earlier.length + 1) (text : String) :
    programEvents (commands ++ more) (earlier ++ [text]) = programEvents commands earlier ++
      (((State.afterLines earlier).apply (Line.read text).words).request.dwell.toList.map .pause ++
        more.map .move) := by
  have length := State.length_outcomes (State.initial : State α) earlier
  have last := filter_own below own
  simp only [programEvents, State.outcomes_concat, List.zipIdx_append, List.flatMap_append, length,
    List.zipIdx_singleton, List.flatMap_singleton, Nat.add_comm 1, last]
  congr 1
  refine List.flatMap_congr fun entry mem => ?_
  have within := List.snd_lt_add_of_mem_zipIdx mem
  rw [filter_earlier own (by omega)]

/-- The pauses among the events are those of the lines. -/
theorem pauses_programEvents (commands : List (Command α)) (lines : List String) :
    (programEvents commands lines).filterMap Event.pause? =
      ((State.initial : State α).outcomes lines).filterMap (·.request.dwell) := by
  unfold programEvents
  generalize (State.initial : State α).outcomes lines = outcomes
  generalize 1 = first
  induction outcomes generalizing first with
  | nil => rfl
  | cons outcome rest ih =>
    rw [List.zipIdx_cons, List.flatMap_cons, List.filterMap_append, List.filterMap_append, ih,
      Event.filterMap_pause_pauses, Event.filterMap_pause_moves, List.append_nil,
      List.filterMap_cons]
    cases outcome.request.dwell <;> rfl

/-! ### Measures -/

theorem getD_moveTime (length rotaryTravel feed : α) :
    (moveTime? length rotaryTravel feed).getD 0.0 =
      let travel := timedTravel length rotaryTravel
      if travel ≤ travelTolerance then 0.0
      else if 0.0 < feed then travel / feed * 60.0 else 0.0 := by
  unfold moveTime?
  dsimp only
  split
  · rfl
  · split <;> rfl

namespace Builder

/-- The distances of a builder are the sums over its commands, and each command has the
    duration that its distance gives at its feed. -/
structure Measured (b : Builder α) : Prop where
  cutting : b.totals.cutting =
    total ((b.commands.toList.filter (!·.isRapid)).map Command.length)
  rapid : b.totals.rapid = total ((b.commands.toList.filter (·.isRapid)).map Command.length)
  rotary : b.totals.rotary = total (b.commands.toList.map Command.rotaryTravel)
  duration : ∀ c ∈ b.commands, c.duration =
    (moveTime? c.length c.rotaryTravel
      (b.setup.machine.feedOf c.isRapid c.state.feedRate)).getD 0.0

theorem measured_of_start {setup : Setup α} {b : Builder α} (h : start setup = .ok b) :
    b.Measured := by
  obtain ⟨-, rfl⟩ := eq_of_start h
  refine ⟨rfl, rfl, rfl, ?_⟩
  intro c mem
  exact absurd mem (Array.not_mem_empty c)

theorem Measured.addSegment {b : Builder α} (h : b.Measured) (source : String) (after : State α)
    (segment : Segment α) : (b.addSegment source after segment).Measured := by
  let command := b.commandOf source after segment
  have commands : (b.addSegment source after segment).commands.toList =
      b.commands.toList ++ [command] := Array.toList_push
  constructor
  case cutting =>
    have added : (b.addSegment source after segment).totals.cutting =
        if command.isRapid then b.totals.cutting else b.totals.cutting + command.length := rfl
    rw [added, commands, List.filter_append, List.map_append, h.cutting]
    cases rapid : command.isRapid with
    | true => simp [rapid]
    | false => simp [rapid, total_concat]
  case rapid =>
    have added : (b.addSegment source after segment).totals.rapid =
        if command.isRapid then b.totals.rapid + command.length else b.totals.rapid := rfl
    rw [added, commands, List.filter_append, List.map_append, h.rapid]
    cases rapid : command.isRapid with
    | true => simp [rapid, total_concat]
    | false => simp [rapid]
  case rotary =>
    have added : (b.addSegment source after segment).totals.rotary =
        b.totals.rotary + command.rotaryTravel := rfl
    rw [added, commands, List.map_append, h.rotary]
    exact (total_concat _ _).symm
  case duration =>
    intro c mem
    rcases Array.mem_push.mp mem with mem | rfl
    · exact h.duration c mem
    · rfl

/-- **Every small step keeps the distances the sums over the commands.** -/
theorem Step.measured {b next : Builder α} (step : Step b next) (h : b.Measured) :
    next.Measured := by
  cases step with
  | count => exact ⟨h.cutting, h.rapid, h.rotary, h.duration⟩
  | note => exact ⟨h.cutting, h.rapid, h.rotary, h.duration⟩
  | pause => exact ⟨h.cutting, h.rapid, h.rotary, h.duration⟩
  | remember => exact ⟨h.cutting, h.rapid, h.rotary, h.duration⟩
  | segment source after segment => exact h.addSegment source after segment

/-! ### Times -/

/-- The builder has lived through the events: its commands are those among them, each starts
    when the events before it have passed, and the clock stands when all have. -/
structure Chronicle (b : Builder α) (events : List (Event α)) : Prop where
  commands : b.commands.toList = events.filterMap Event.command?
  start : ∀ before c after, events = before ++ .move c :: after →
    c.startTime = total (before.map Event.seconds)
  clock : b.totals.clock = total (events.map Event.seconds)
  dwell : b.totals.dwell = total (events.filterMap Event.pause?)

variable {b : Builder α} {events : List (Event α)}

/-- The commands and the totals are all that events show in. -/
theorem Chronicle.of_eq {other : Builder α} (h : b.Chronicle events)
    (commands : other.commands = b.commands) (totals : other.totals = b.totals) :
    other.Chronicle events := by
  constructor
  case commands => rw [commands, h.commands]
  case start => exact h.start
  case clock => rw [totals, h.clock]
  case dwell => rw [totals, h.dwell]

theorem chronicle_of_start {setup : Setup α} (h : start setup = .ok b) : b.Chronicle [] := by
  obtain ⟨-, rfl⟩ := eq_of_start h
  refine ⟨rfl, ?_, rfl, rfl⟩
  intro before c after split
  exact absurd split.symm (List.append_ne_nil_of_right_ne_nil _ (List.cons_ne_nil _ _))

/-- A command behind the events starts when the clock stands. -/
theorem Chronicle.start_concat (h : b.Chronicle events) {last : Event α}
    (own : ∀ c, last = .move c → c.startTime = b.totals.clock) :
    ∀ before c after, events ++ [last] = before ++ .move c :: after →
      c.startTime = total (before.map Event.seconds) := by
  intro before c after split
  rcases List.eq_nil_or_concat' after with rfl | ⟨front, e, rfl⟩
  · obtain ⟨rfl, same⟩ := List.append_inj' split rfl
    rw [own c (List.singleton_inj.mp same), h.clock]
  · rw [← List.cons_append, ← List.append_assoc] at split
    obtain ⟨inner, -⟩ := List.append_inj' split rfl
    exact h.start before c front inner

theorem Chronicle.pause (h : b.Chronicle events) (dwell : Option α) :
    Chronicle { b with totals := b.totals.addDwell dwell } (events ++ dwell.toList.map .pause) := by
  cases dwell with
  | none =>
    rw [Option.toList_none, List.map_nil, List.append_nil]
    exact h.of_eq rfl rfl
  | some seconds =>
    constructor
    case commands =>
      rw [List.filterMap_append, Event.filterMap_command_pauses, List.append_nil]
      exact h.commands
    case start => exact h.start_concat fun _ same => nomatch same
    case clock =>
      rw [List.map_append]
      exact (congrArg (· + seconds) h.clock).trans (total_concat _ _).symm
    case dwell =>
      rw [List.filterMap_append]
      exact (congrArg (· + seconds) h.dwell).trans (total_concat _ _).symm

theorem Chronicle.addSegment (h : b.Chronicle events) (source : String) (after : State α)
    (segment : Segment α) : (b.addSegment source after segment).Chronicle
      (events ++ [.move (b.commandOf source after segment)]) := by
  constructor
  case commands =>
    rw [List.filterMap_append, ← h.commands]
    exact Array.toList_push
  case start =>
    refine h.start_concat fun c same => ?_
    rw [← Event.move.inj same]
    rfl
  case clock =>
    rw [List.map_append]
    exact (congrArg (· + _) h.clock).trans (total_concat _ _).symm
  case dwell =>
    rw [List.filterMap_append]
    exact h.dwell.trans (congrArg total (List.append_nil _).symm)

theorem Chronicle.foldl_addSegment (h : b.Chronicle events) (source : String) (after : State α)
    (segments : List (Segment α)) : ∃ more,
      (segments.foldl (Builder.addSegment source after) b).Chronicle
        (events ++ List.map Event.move more) := by
  induction segments generalizing b events with
  | nil => exact ⟨[], (List.append_nil events).symm ▸ h⟩
  | cons segment rest ih =>
    obtain ⟨more, chronicle⟩ := ih (h.addSegment source after segment)
    refine ⟨b.commandOf source after segment :: more, ?_⟩
    rw [List.append_assoc] at chronicle
    exact chronicle

/-- **Words pause and then move.** -/
theorem Chronicle.addWords (h : b.Chronicle events) (source : String) (words : List (Word α)) :
    ∃ more, (b.addWords source words).Chronicle (events ++
      ((b.state.apply words).request.dwell.toList.map .pause ++ List.map Event.move more)) := by
  let outcome := b.state.apply words
  let cut := Segment.ofRequest outcome.request outcome.state.plane b.setup.machine
  have noted : (b.note (outcome.findings ++ b.setup.offsets.findings b.state outcome.state ++
      cut.2)).Chronicle events := h.of_eq rfl rfl
  obtain ⟨more, moved⟩ :=
    (noted.pause outcome.request.dwell).foldl_addSegment source outcome.state cut.1
  rw [List.append_assoc events] at moved
  exact ⟨more, moved.of_eq rfl rfl⟩

theorem Chronicle.takeLine (h : b.Chronicle events) (settled : b.state.Settled) (text : String) :
    ∃ more, (b.takeLine text).Chronicle (events ++
      ((b.state.apply (Line.read text).words).request.dwell.toList.map .pause ++
        List.map Event.move more)) := by
  have counted : ({ b with line := b.line + 1 }.note
      ((Line.read (α := α) text).rejected.map .unreadable)).Chronicle events := h.of_eq rfl rfl
  unfold Builder.takeLine
  dsimp only
  split
  · rename_i empty
    rw [List.isEmpty_iff.mp empty, State.apply_nil settled]
    refine ⟨[], ?_⟩
    rw [List.map_nil, List.append_nil]
    exact (List.append_nil events).symm ▸ counted
  · exact counted.addWords _ _

/-- **A builder lives through the events of the lines that it takes.** -/
theorem chronicle_foldl_takeLine {setup : Setup α} (hstart : Builder.start setup = .ok b)
    (lines : List String) : (lines.foldl Builder.takeLine b).Chronicle
      (programEvents (lines.foldl Builder.takeLine b).commands.toList lines) := by
  induction lines using List.reverseRecOn with
  | nil => exact chronicle_of_start hstart
  | append_singleton earlier text ih =>
    have state := state_foldl_takeLine hstart earlier
    have settled := settled_foldl_takeLine hstart earlier
    have line := line_taken hstart earlier
    have numbered := numbered_taken hstart earlier
    rw [List.foldl_append, List.foldl_cons, List.foldl_nil]
    generalize earlier.foldl Builder.takeLine b = last at ih state settled line numbered
    obtain ⟨more, chronicle⟩ := ih.takeLine settled text
    have commands : (last.takeLine text).commands.toList = last.commands.toList ++ more := by
      rw [chronicle.commands, List.filterMap_append, List.filterMap_append, ← ih.commands,
        Event.filterMap_command_pauses, Event.filterMap_command_moves, List.nil_append]
    have below : ∀ c ∈ last.commands.toList, c.line ≤ earlier.length := by
      rw [← line]
      exact numbered.commands.le
    have own : ∀ c ∈ more, c.line = earlier.length + 1 := by
      obtain ⟨added, same, between⟩ := (grows_takeLine last text).commands
      obtain rfl := List.append_cancel_left (commands.symm.trans same)
      intro c mem
      have := between c mem
      rw [line_takeLine, line] at this
      omega
    rw [commands, programEvents_concat below own, ← state]
    exact chronicle

end Builder

namespace Toolpath

/-- The statistics of a toolpath are the totals of its commands and of the pauses of lines. -/
structure AddsUp (machine : Parameters α) (lines : List String) (path : Toolpath α) : Prop where
  cutting : path.stats.cuttingDistance =
    total ((path.commands.toList.filter (!·.isRapid)).map Command.length)
  rapid : path.stats.rapidDistance =
    total ((path.commands.toList.filter (·.isRapid)).map Command.length)
  rotary : path.stats.rotaryTravel = total (path.commands.toList.map Command.rotaryTravel)
  distance : path.stats.totalDistance = path.stats.cuttingDistance + path.stats.rapidDistance
  dwell : path.stats.dwellTime =
    total (((State.initial : State α).outcomes lines).filterMap (·.request.dwell))
  count : path.stats.commandCount = path.commands.size
  /-- The commands are events of the program, each of them once and in their order. -/
  moves : (programEvents path.commands.toList lines).filterMap Event.command? =
    path.commands.toList
  start : ∀ before c after,
    programEvents path.commands.toList lines = before ++ .move c :: after →
      c.startTime = total (before.map Event.seconds)
  estimated : path.stats.estimatedTime =
    total ((programEvents path.commands.toList lines).map Event.seconds)
  duration : ∀ c ∈ path.commands,
    let travel := if 1e-9 < c.length then c.length else c.rotaryTravel
    let feed := if c.isRapid then machine.rapidFeed else c.state.feedRate
    c.duration = if travel ≤ 1e-9 then 0.0 else if 0.0 < feed then travel / feed * 60.0 else 0.0

/-- **The statistics of a program add up**: distances over the commands, pauses over the
    lines, and times over both. -/
theorem addsUp_of_build {setup : Setup α} {text : String} {path : Toolpath α}
    (built : Toolpath.build setup text = .ok path) :
    path.AddsUp setup.machine (programLines text) := by
  obtain ⟨b, hstart, hfinish⟩ := Toolpath.run_of_build built
  have commands := (Builder.toolpath_of_finish hfinish).1
  obtain ⟨box, -, stats⟩ := Builder.stats_of_finish hfinish
  have steps := Builder.steps_foldl_takeLine (programLines text) b
  have setup_eq := steps.setup_eq.trans (Builder.setup_of_start hstart)
  have measured := steps.keeps Builder.Step.measured (Builder.measured_of_start hstart)
  have chronicle := Builder.chronicle_foldl_takeLine hstart (programLines text)
  generalize (programLines text).foldl Builder.takeLine b = last at *
  rw [← commands] at chronicle
  constructor
  case cutting => rw [stats, commands]; exact measured.cutting
  case rapid => rw [stats, commands]; exact measured.rapid
  case rotary => rw [stats, commands]; exact measured.rotary
  case distance => rw [stats]
  case dwell =>
    rw [stats, ← pauses_programEvents path.commands.toList]
    exact chronicle.dwell
  case count => rw [stats, commands]
  case moves => rw [← chronicle.commands, commands]
  case start => exact chronicle.start
  case estimated => rw [stats]; exact chronicle.clock
  case duration =>
    intro c mem
    rw [commands] at mem
    have duration := measured.duration c mem
    rw [getD_moveTime, setup_eq] at duration
    exact duration

/-- A pause on a line of its own, a hole, a rapid move, a turn and a move without a feed. -/
theorem addsUp_pause :
    let setup : Setup Float := ⟨.ofRapidFeed 5000.0, .empty⟩
    let text := "G4 P2\nG81 X1 R2 Z-3 F50\nG0 X5 A90\nG1 A0\nG4 P1\nG1 X7 F0"
    ∃ path, Toolpath.build setup text = .ok path ∧ path.size = 6 ∧
      path.stats.dwellTime = 3.0 ∧ path.AddsUp setup.machine (programLines text) := by
  intro setup text
  have run : (Toolpath.build setup text).toOption.any (fun path =>
      decide (path.size = 6 ∧ path.stats.dwellTime = 3.0)) = true := by
    decide +kernel
  obtain ⟨path, built, told⟩ := Toolpath.exists_of_any run
  obtain ⟨size, dwell⟩ := of_decide_eq_true told
  exact ⟨path, built, size, dwell, addsUp_of_build built⟩

end Toolpath

end NumericalControl
