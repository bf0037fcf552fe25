/-
  NumericalControl/Toolpath/Builder.lean
  ======================================
  **From lines to a toolpath.**  A `Builder` takes the lines of a program one by one.
  Each line is read, applied to the memory of the controller, cut into segments, and
  carried segment by segment to the machine.  Commands and findings are only ever added
  at the end, and a line that is refused leaves the builder as it was.

  Two positions are kept.  The memory holds the position reached in the program, and
  `cursor` the position reached by the machine, which is where the next command starts.
-/
import NumericalControl.Text.Lines
import NumericalControl.Toolpath
import NumericalControl.Word.Line

namespace NumericalControl

structure Totals (α : Type) where
  /-- Seconds, pauses included. -/
  clock : α
  cutting : α
  rapid : α
  rotary : α
  dwell : α
  bounds : Option (Box α)
  deriving DecidableEq, Repr

structure Builder (α : Type) where
  setup : Setup α
  state : State α
  commands : Array (Command α)
  diagnostics : Array (Diagnostic α)
  /-- Number of the last line taken, zero before the first. -/
  line : Nat
  cursor : Position α
  /-- The stroke of the last command, which level moves keep. -/
  stroke : Stroke
  totals : Totals α

variable {α : Type} [Scalar α]

/-! ### Offsets that are missing -/

/-- Findings on the offsets that a line newly brings into force. -/
def Offsets.findings (offsets : Offsets α) (before after : State α) : List (Finding α) :=
  let work :=
    if after.workOffset ≠ before.workOffset ∧ !offsets.work.contains after.workOffset then
      [.missingWorkOffset after.workOffset]
    else []
  let length :=
    if after.lengthComp
        ∧ (!before.lengthComp ∨ after.lengthRegister ≠ before.lengthRegister) then
      if after.lengthRegister = 0 then [.lengthRegisterZero]
      else if (offsets.tool.get? .length after.lengthRegister).isNone then
        [.missingLength after.lengthRegister]
      else []
    else []
  let cutter :=
    if after.cutterSide.isSome
        ∧ (after.cutterSide ≠ before.cutterSide
          ∨ after.diameterRegister ≠ before.diameterRegister) then
      ((offsets.cutterReport? after).map fun report =>
        .cutterReported report.side report.register report.radius).toList
        ++ (if 0 < after.diameterRegister
              ∧ (offsets.tool.get? .diameter after.diameterRegister).isNone then
            [.missingDiameter after.diameterRegister]
          else [])
    else []
  work ++ length ++ cutter

/-! ### Measures of a move -/

/-- Travel that counts as none, in millimetres or degrees. -/
def travelTolerance : α := 1e-9

/-- The travel by which a move is timed: the rotary travel counts where the path has no
    length. -/
def timedTravel (length rotaryTravel : α) : α :=
  if travelTolerance < length then length else rotaryTravel

/-- Seconds that a move takes at a feed a minute. A move without a feed has no time. -/
def moveTime? (length rotaryTravel feed : α) : Option α :=
  let distance := timedTravel length rotaryTravel
  if distance ≤ travelTolerance then some 0.0
  else if (0.0 : α) < feed then some (distance / feed * 60.0)
  else none

/-- The feed of a move: rapid moves have that of the machine. -/
def Parameters.feedOf (machine : Parameters α) (isRapid : Bool) (programmed : α) : α :=
  if isRapid then machine.rapidFeed else programmed

/-- The box of a move: both ends, and the circle of an arc. -/
def moveBounds (start target : Position α) (arc : Option (Arc α)) : Box α :=
  let ends := (Box.ofPoint start).grow target
  match arc with
  | none => ends
  | some arc =>
    arc.envelope.foldl (fun box (axis, low, high) => (box.growOn axis low).growOn axis high) ends

def Totals.addMove (totals : Totals α) (isRapid : Bool) (length rotaryTravel duration : α)
    (bounds : Box α) : Totals α :=
  { totals with
    clock := totals.clock + duration
    cutting := if isRapid then totals.cutting else totals.cutting + length
    rapid := if isRapid then totals.rapid + length else totals.rapid
    rotary := totals.rotary + rotaryTravel
    bounds := some (match totals.bounds with
      | some box => box.union bounds
      | none => bounds) }

def Totals.addDwell (totals : Totals α) : Option α → Totals α
  | some seconds =>
    { totals with clock := totals.clock + seconds, dwell := totals.dwell + seconds }
  | none => totals

namespace Builder

/-- A builder before the first line. The machine stands where the program begins. -/
def start (setup : Setup α) : Except (Fault α) (Builder α) :=
  match setup.machine.fault? with
  | some fault => .error (.setup fault)
  | none =>
    .ok {
      setup
      state := .initial
      commands := #[]
      diagnostics := #[]
      line := 0
      cursor := setup.offsets.toMachine .zero .initial .approach
      stroke := .approach
      totals := ⟨0.0, 0.0, 0.0, 0.0, 0.0, none⟩ }

def note (b : Builder α) (findings : List (Finding α)) : Builder α :=
  { b with diagnostics := b.diagnostics ++ findings.map (Diagnostic.mk b.line) }

/-- The stroke of a segment. A level segment keeps the stroke before it. -/
def strokeOf (b : Builder α) (after : State α) (segment : Segment α) : Stroke :=
  (Stroke.between? segment.start segment.target after.plane.normal).getD b.stroke

/-- The command that carries a segment of the current line to the machine. -/
def commandOf (b : Builder α) (source : String) (after : State α) (segment : Segment α) :
    Command α :=
  let machine := b.setup.machine
  let offsets := b.setup.offsets
  let target := offsets.toMachine segment.target after (b.strokeOf after segment)
  let arc := segment.arc.map fun arc =>
    arc.rebased (offsets.centerToMachine arc.center after) b.cursor target
  let length := match arc with
    | some arc => arc.length
    | none => b.cursor.linearDistance target
  let rotaryTravel := b.cursor.rotaryDistance target
  let feed := machine.feedOf segment.isRapid after.feedRate
  { index := b.commands.size
    line := b.line
    source
    motion := segment.motion
    start := b.cursor
    target
    arc
    feedRate := after.feedRate
    spindleSpeed := after.spindleSpeed
    isRapid := segment.isRapid
    phase := segment.phase
    cutter := offsets.cutterReport? after
    length
    rotaryTravel
    startTime := b.totals.clock
    duration := (moveTime? length rotaryTravel feed).getD 0.0
    bounds := moveBounds b.cursor target arc
    state := after }

/-- Findings on a command: it has no feed, it leaves the travel limits. -/
def commandFindings (machine : Parameters α) (c : Command α) : List (Finding α) :=
  (if (moveTime? c.length c.rotaryTravel (machine.feedOf c.isRapid c.feedRate)).isNone then
    [.zeroFeed] else [])
    ++ (if machine.travelLimits.any (!c.bounds.fitsWithin ·) then [.outsideLimits c.target]
      else [])

/-- Adds the command of a segment of the current line. -/
def addSegment (source : String) (after : State α) (b : Builder α) (segment : Segment α) :
    Builder α :=
  let command := b.commandOf source after segment
  let stroke := b.strokeOf after segment
  let noted := b.note (commandFindings b.setup.machine command)
  { noted with
    commands := noted.commands.push command
    cursor := command.target
    stroke
    totals := noted.totals.addMove command.isRapid command.length command.rotaryTravel
      command.duration command.bounds }

def addWords (b : Builder α) (source : String) (words : List (Word α)) : Builder α :=
  let outcome := b.state.apply words
  let (segments, remarks) :=
    Segment.ofRequest outcome.request outcome.state.plane b.setup.machine
  let noted := b.note
    (outcome.findings ++ b.setup.offsets.findings b.state outcome.state ++ remarks)
  let paused := { noted with totals := noted.totals.addDwell outcome.request.dwell }
  { segments.foldl (addSegment source outcome.state) paused with state := outcome.state }

/-- Why a further line is refused, if it is. -/
def refusal? (b : Builder α) : Option (Fault α) :=
  (b.setup.machine.maxLines.filter (· < b.line + 1)).map (.lineLimitExceeded (b.line + 1))

/-- Takes a line that is not refused. A line without words only counts. -/
def takeLine (b : Builder α) (text : String) : Builder α :=
  let line : Line α := Line.read text
  let b := { b with line := b.line + 1 }.note (line.rejected.map .unreadable)
  if line.words.isEmpty then b
  else b.addWords (String.ofList (Text.trim text.toList)) line.words

def pushLine (b : Builder α) (text : String) : Except (Fault α) (Builder α) :=
  match b.refusal? with
  | some fault => .error fault
  | none => .ok (b.takeLine text)

/-- The builder after a line was offered: a refused line leaves it as it was. -/
def offer (b : Builder α) (text : String) : Builder α :=
  if b.refusal?.isSome then b else b.takeLine text

/-- The toolpath of all lines taken. A program must move. -/
def finish (b : Builder α) : Except (Fault α) (Toolpath α) :=
  match b.totals.bounds with
  | none => .error .emptyProgram
  | some boundingBox =>
    .ok {
      commands := b.commands
      stats :=
        { totalDistance := b.totals.cutting + b.totals.rapid
          cuttingDistance := b.totals.cutting
          rapidDistance := b.totals.rapid
          rotaryTravel := b.totals.rotary
          dwellTime := b.totals.dwell
          estimatedTime := b.totals.clock
          boundingBox
          commandCount := b.commands.size }
      diagnostics := b.diagnostics }

end Builder

def Toolpath.build (setup : Setup α) (text : String) : Except (Fault α) (Toolpath α) := do
  let lines := (Text.lines text.toList).map String.ofList
  let builder ← lines.foldlM Builder.pushLine (← Builder.start setup)
  builder.finish

end NumericalControl
