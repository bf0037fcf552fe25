/-
  NumericalControl/Proofs/Toolpath/Continuity.lean
  ================================================
  **A toolpath has no gaps.**  The first command starts where the origin of the program
  lies on the machine before any line is read.  Every further command starts where the one
  before it ends, and the last one ends where the position in memory lies on the machine,
  carried over by the memory and the stroke of that command (`Builder.Joined`).

  The cursor, the position in memory and the stroke are kept apart and changed at
  different times.  They agree because they are three views of the stand of a course, and
  a course goes on from the stand that it reached.
-/
import NumericalControl.Proofs.Toolpath.Mirror

namespace NumericalControl

variable {α : Type} [Scalar α]

namespace Builder

/-- The commands form one way from the origin of the program to the position in memory. -/
structure Joined (b : Builder α) : Prop where
  first : ∀ c, b.commands[0]? = some c →
    c.start = b.setup.offsets.toMachine .zero .initial .approach
  next : ∀ i before after, b.commands[i]? = some before → b.commands[i + 1]? = some after →
    after.start = before.target
  last : ∀ c, b.commands.back? = some c →
    c.target = b.setup.offsets.toMachine b.state.position c.state b.stroke

/-- A builder that mirrors a sound course has its commands joined. -/
theorem Mirrors.joined {b : Builder α} {course : Course α} (h : b.Mirrors course)
    (sound : course.Sound) : b.Joined := by
  constructor
  case first =>
    intro c hc
    obtain ⟨stretch, hstretch, carried⟩ := h.carried hc
    rw [carried.start, sound.leads.head_eq hstretch]
    rfl
  case next =>
    intro i before after hbefore hafter
    obtain ⟨stretch, hstretch, carried⟩ := h.carried hbefore
    obtain ⟨onward, honward, carried'⟩ := h.carried hafter
    rw [carried'.start, carried.target, sound.leads.succ_eq hstretch honward]
  case last =>
    intro c hc
    obtain ⟨stretch, hstretch, carried⟩ := h.carried_last hc
    have leave : course.stand = stretch.leave := sound.leads.last_eq hstretch
    have place : stretch.leave.place = b.state.position := by
      rw [← leave, sound.place, h.state]
    have stroke : stretch.leave.stroke = b.stroke := by
      rw [← leave, h.stroke]
    rw [carried.target, ← place, ← stroke, carried.state]
    rfl

/-- **The commands are joined after any lines that are offered.**  Lines that are refused,
    that have no words, or that ask for no motion are among them. -/
theorem joined_foldl_offer {setup : Setup α} (valid : setup.machine.check = .ok ()) :
    ∃ b, start setup = .ok b ∧ ∀ lines : List String,
      (lines.foldl offer b).setup = setup ∧ (lines.foldl offer b).Joined := by
  obtain ⟨b, hstart⟩ := exists_start valid
  refine ⟨b, hstart, ?_⟩
  intro lines
  obtain ⟨course, sound, mirrors⟩ := exists_mirrors_foldl_offer hstart lines
  exact ⟨(steps_foldl_offer lines b).setup_eq.trans (setup_of_start hstart),
    mirrors.joined sound⟩

theorem joined_hole :
    let setup : Setup Float := {
      machine := { Parameters.ofRapidFeed 5000.0 with maxLines := some 3 }
      offsets := {
        work := WorkOffsets.empty.insert "G54" ⟨10.0, 20.0, -5.0, 0.0, 0.0⟩
        tool := { ToolOffsets.empty with lengths := Table.empty.insert 1 ⟨100.0, 0.5⟩ } } }
    let lines := ["G43 H1 G1 X5 F100", "G81 R2 Z-3 X1", "M5", "G1 X9"]
    setup.machine.check = .ok () ∧ ∃ b, start setup = .ok b ∧
      (lines.foldl offer b).commands.size = 4 ∧ (lines.foldl offer b).Joined := by
  intro setup lines
  have valid : setup.machine.check = .ok () := by decide +kernel
  obtain ⟨b, hstart, joined⟩ := joined_foldl_offer valid
  have size : (start setup).toOption.map (fun b => (lines.foldl offer b).commands.size) =
      some 4 := by
    decide +kernel
  rw [hstart] at size
  exact ⟨valid, b, hstart, Option.some.inj size, (joined lines).2⟩

end Builder

/-- **A command of a toolpath starts where the one before it ends.** -/
theorem Toolpath.start_eq_target {setup : Setup α} {text : String} {path : Toolpath α}
    (built : Toolpath.build setup text = .ok path) {i : Nat} {before after : Command α}
    (hbefore : path.commands[i]? = some before) (hafter : path.commands[i + 1]? = some after) :
    after.start = before.target := by
  obtain ⟨b, hstart, hfinish⟩ := Toolpath.run_of_build built
  have mirrors := Builder.mirrors_foldl_takeLine hstart (programLines text)
  have joined := mirrors.joined (Course.sound_ofLines setup.machine (programLines text))
  rw [(Builder.toolpath_of_finish hfinish).1] at hbefore hafter
  exact joined.next i before after hbefore hafter

end NumericalControl
