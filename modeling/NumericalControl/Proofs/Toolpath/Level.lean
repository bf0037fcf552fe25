/-
  NumericalControl/Proofs/Toolpath/Level.lean
  ===========================================
  **Level moves stay level.**  Length compensation moves a command along the tool axis by an
  amount that depends on its stroke, and the ends of a command may have been carried over by
  different lines.  But a command begins where the one before it has left the machine, under
  the memory and the stroke of that one, and a level segment keeps the stroke.  So where both
  memories displace alike, both ends of a level move are displaced by the same amount and
  nothing is rounded differently (`Toolpath.keepsLevel_of_build`).

  What is true of one move is true of any chain of them: after an approach or a retract, level
  moves, arcs and legs of holes stay on the level where they began, whatever lines without a
  motion lie between them.
-/
import NumericalControl.Proofs.Arc
import NumericalControl.Proofs.Binary64.Agree
import NumericalControl.Proofs.Toolpath.Continuity
import NumericalControl.Proofs.Toolpath.Stream

namespace NumericalControl

/-! ### Memories that displace alike -/

/-- Under both memories a program position lies at the same place on the machine. -/
structure State.DisplacesAlike {α : Type} (s t : State α) : Prop where
  workOffset : s.workOffset = t.workOffset
  lengthComp : s.lengthComp = t.lengthComp
  lengthRegister : s.lengthRegister = t.lengthRegister
  plane : s.plane = t.plane

namespace Offsets

section

variable {α : Type} [Scalar α]

theorem toMachine_of_alike (offsets : Offsets α) {s t : State α} (alike : s.DisplacesAlike t)
    (p : Position α) (stroke : Stroke) :
    offsets.toMachine p s stroke = offsets.toMachine p t stroke := by
  unfold Offsets.toMachine Offsets.shift
  rw [alike.workOffset, alike.lengthComp, alike.lengthRegister, alike.plane]

/-- Along the tool axis the length of the tool is added or taken away. -/
theorem get_toMachine_normal (offsets : Offsets α) (p : Position α) (s : State α)
    (stroke : Stroke) :
    (offsets.toMachine p s stroke).get s.plane.normal =
      let shifted := p.get s.plane.normal + (offsets.shift s).get s.plane.normal
      let length := offsets.tool.length s.lengthRegister
      if s.lengthComp ∧ 0 < s.lengthRegister then
        match stroke with
        | .approach => shifted - length
        | .retract => shifted + length
      else shifted := by
  have added : (p.add (offsets.shift s)).get s.plane.normal =
      p.get s.plane.normal + (offsets.shift s).get s.plane.normal := Position.get_ofAxes _ _
  unfold Offsets.toMachine
  dsimp only
  rw [← added]
  split
  · exact Position.get_set_self _ _ _
  · rfl

end

/-- Coordinates that agree along the tool axis are carried over to such coordinates. -/
theorem agree_toMachine (offsets : Offsets Float) (s : State Float) (stroke : Stroke)
    {p q : Position Float} (h : Scalar.Agree (p.get s.plane.normal) (q.get s.plane.normal)) :
    Scalar.Agree ((offsets.toMachine p s stroke).get s.plane.normal)
      ((offsets.toMachine q s stroke).get s.plane.normal) := by
  have shifted := Binary64.agree_add h ((offsets.shift s).get s.plane.normal)
  rw [get_toMachine_normal, get_toMachine_normal]
  dsimp only
  split
  · cases stroke with
    | approach => exact Binary64.agree_sub shifted _
    | retract => exact Binary64.agree_add shifted _
  · exact shifted

end Offsets

/-! ### Level moves -/

def Command.toolAxis {α : Type} (c : Command α) : Axis := c.state.plane.normal

/-- A level stretch is carried over under one displacement, where the memory before it
    displaces like its own. -/
theorem Stretch.exists_stroke {offsets : Offsets Float} {stretch : Stretch Float}
    {c : Command Float} (carried : stretch.Carried offsets c)
    (place : stretch.segment.start = stretch.stand.place)
    (alike : stretch.stand.frame.DisplacesAlike c.state)
    (level : Scalar.Agree (stretch.segment.start.get c.toolAxis)
      (stretch.segment.target.get c.toolAxis)) :
    ∃ stroke, c.start = offsets.toMachine stretch.segment.start c.state stroke ∧
      c.target = offsets.toMachine stretch.segment.target c.state stroke := by
  refine ⟨stretch.stand.stroke, ?_, ?_⟩
  · rw [carried.start, place, ← offsets.toMachine_of_alike alike]
    rfl
  · -- no stroke of its own, so it keeps the one by which its start was carried over
    have kept : stretch.leave.stroke = stretch.stand.stroke := by
      have flat := Binary64.between?_of_agree level
      rw [Command.toolAxis, carried.state] at flat
      rw [Stretch.leave, Stand.next, flat]
      rfl
    rw [carried.target, Stand.onMachine, kept, carried.state]
    rfl

/-- An arc advances along the normal of its plane as far as its command does. -/
theorem Stretch.Carried.helicalSpan_eq {α : Type} [Scalar α] {offsets : Offsets α}
    {stretch : Stretch α} {c : Command α} (carried : stretch.Carried offsets c) {arc : Arc α}
    (harc : c.arc = some arc) :
    arc.helicalSpan = c.target.get arc.plane.normal - c.start.get arc.plane.normal := by
  rw [carried.arc] at harc
  obtain ⟨programmed, -, rfl⟩ := Option.map_eq_some_iff.mp harc
  rfl

/-- Where both ends of a command are on one level, all of it is. -/
theorem Command.agree_positionAt {c : Command Float} {axis : Axis}
    (level : c.start.get axis = c.target.get axis)
    (finite : Scalar.isFinite (c.start.get axis) = true)
    (outside : ∀ arc, c.arc = some arc → axis = arc.plane.normal) {t : Float}
    (defined : ¬Scalar.IsNaN t) :
    Scalar.Agree ((c.positionAt t).get axis) (c.start.get axis) := by
  unfold positionAt
  split_ifs with front behind
  · exact Binary64.agree_refl _
  · rw [level]
    exact Binary64.agree_refl _
  · -- a line and an arc advance alike along an axis outside the plane
    have along : Scalar.Agree (c.start.get axis + (c.target.get axis - c.start.get axis) * t)
        (c.start.get axis) := by
      rw [← level, Binary64.sub_self finite]
      refine Binary64.agree_add_zero (Binary64.agree_zero_mul ?_) _
      exact Binary64.isFinite_of_between defined front behind
    cases harc : c.arc with
    | none =>
      dsimp only
      rw [Position.lerp, Position.get_ofAxes]
      exact along
    | some arc =>
      obtain rfl := outside arc harc
      dsimp only
      rw [Arc.get_positionAt_of_ne arc _ _ _ arc.plane.normal_ne_fst arc.plane.normal_ne_snd]
      exact along

namespace Toolpath

variable {setup : Setup Float} {text : String} {path : Toolpath Float}

/-- The command behind a place carries the stretch, and its memory displaces like that of the
    command at the place. -/
structure GoesOn (setup : Setup Float) (text : String) (path : Toolpath Float) (i : Nat)
    (c : Command Float) (stretch : Stretch Float) : Prop where
  command : path.commands[i + 1]? = some c
  listed : (Course.ofLines setup.machine (programLines text)).stretches[i + 1]? = some stretch
  alike : ∃ before, path.commands[i]? = some before ∧ before.state.DisplacesAlike c.state

/-- The command behind a place goes on, and its move is level in the program. -/
structure GoesOnLevel (setup : Setup Float) (text : String) (path : Toolpath Float) (i : Nat)
    (c : Command Float) (stretch : Stretch Float) : Prop extends
    path.GoesOn setup text i c stretch where
  level : stretch.segment.start.get c.toolAxis = stretch.segment.target.get c.toolAxis

/-- Level moves of the program are level on the machine. -/
structure KeepsLevel (setup : Setup Float) (text : String) (path : Toolpath Float) : Prop where
  /-- Each command carries a stretch of the program. -/
  carried : List.Forall₂ (Stretch.Carried setup.offsets)
    (Course.ofLines setup.machine (programLines text)).stretches path.commands.toList
  move : ∀ i c stretch, path.GoesOnLevel setup text i c stretch →
    c.start.get c.toolAxis = c.target.get c.toolAxis
  /-- Program coordinates that are the same but for the sign of a zero will do. -/
  agree : ∀ i c stretch, path.GoesOn setup text i c stretch →
    Scalar.Agree (stretch.segment.start.get c.toolAxis) (stretch.segment.target.get c.toolAxis) →
      Scalar.Agree (c.start.get c.toolAxis) (c.target.get c.toolAxis)
  /-- Any number of level moves ends on the level where the first of them began. -/
  chain : ∀ i n first last, path.commands[i]? = some first → path.commands[i + n]? = some last →
    (∀ k < n, ∃ c stretch, path.GoesOnLevel setup text (i + k) c stretch) →
      last.toolAxis = first.toolAxis ∧
        last.target.get last.toolAxis = first.target.get first.toolAxis
  /-- A level arc is planar, and no level move leaves its level on the way. -/
  planar : ∀ i c stretch, path.GoesOnLevel setup text i c stretch →
    Scalar.isFinite (c.start.get c.toolAxis) = true →
      (∀ arc, c.arc = some arc → arc.plane.normal = c.toolAxis ∧ arc.helicalSpan = 0.0) ∧
        ∀ t, ¬Scalar.IsNaN t →
          Scalar.Agree ((c.positionAt t).get c.toolAxis) (c.start.get c.toolAxis)

theorem GoesOn.exists_stroke {i : Nat} {c : Command Float} {stretch : Stretch Float}
    (built : Toolpath.build setup text = .ok path) (on : path.GoesOn setup text i c stretch)
    (level : Scalar.Agree (stretch.segment.start.get c.toolAxis)
      (stretch.segment.target.get c.toolAxis)) :
    ∃ stroke, c.start = setup.offsets.toMachine stretch.segment.start c.state stroke ∧
      c.target = setup.offsets.toMachine stretch.segment.target c.state stroke := by
  have leads := (Course.sound_ofLines setup.machine (programLines text)).leads
  obtain ⟨stretch', found, carried⟩ := Stretch.exists_carried (Toolpath.carried built) on.command
  obtain rfl : stretch = stretch' := Option.some.inj (on.listed.symm.trans found)
  obtain ⟨before, place, alike⟩ := on.alike
  obtain ⟨earlier, found', carried'⟩ := Stretch.exists_carried (Toolpath.carried built) place
  refine Stretch.exists_stroke carried (leads.place_eq (List.mem_of_getElem? found)) ?_ level
  rw [leads.succ_eq found' found, Stretch.leave, Stand.next, ← carried'.state]
  exact alike

theorem GoesOnLevel.start_eq_target {i : Nat} {c : Command Float} {stretch : Stretch Float}
    (built : Toolpath.build setup text = .ok path)
    (on : path.GoesOnLevel setup text i c stretch) :
    c.start.get c.toolAxis = c.target.get c.toolAxis := by
  have agree : Scalar.Agree (stretch.segment.start.get c.toolAxis)
      (stretch.segment.target.get c.toolAxis) := by
    rw [on.level]
    exact Binary64.agree_refl _
  obtain ⟨stroke, start, target⟩ := on.toGoesOn.exists_stroke built agree
  have level := on.level
  unfold Command.toolAxis at level ⊢
  rw [start, target, Offsets.get_toMachine_normal, Offsets.get_toMachine_normal, level]

/-- A chain of level moves ends on the level where it began. -/
theorem target_eq_of_chain (built : Toolpath.build setup text = .ok path) {i n : Nat}
    {first last : Command Float} (hfirst : path.commands[i]? = some first)
    (hlast : path.commands[i + n]? = some last)
    (level : ∀ k < n, ∃ c stretch, path.GoesOnLevel setup text (i + k) c stretch) :
    last.toolAxis = first.toolAxis ∧
      last.target.get last.toolAxis = first.target.get first.toolAxis := by
  induction n generalizing last with
  | zero =>
    obtain rfl : first = last := Option.some.inj (hfirst.symm.trans hlast)
    exact ⟨rfl, rfl⟩
  | succ n ih =>
    obtain ⟨c, stretch, on⟩ := level n (Nat.lt_succ_self n)
    obtain rfl : c = last := Option.some.inj (on.command.symm.trans hlast)
    obtain ⟨before, hbefore, alike⟩ := on.alike
    obtain ⟨axis, same⟩ := ih hbefore fun k less => level k (Nat.lt_succ_of_lt less)
    have axis' : c.toolAxis = before.toolAxis := congrArg Plane.normal alike.plane.symm
    refine ⟨axis'.trans axis, ?_⟩
    -- the last move is level, and it starts where the chain before it has ended
    calc c.target.get c.toolAxis
      _ = c.start.get c.toolAxis := (on.start_eq_target built).symm
      _ = before.target.get before.toolAxis := by
        rw [start_eq_target built hbefore on.command, axis']
      _ = first.target.get first.toolAxis := same

theorem GoesOnLevel.planar {i : Nat} {c : Command Float} {stretch : Stretch Float}
    (built : Toolpath.build setup text = .ok path)
    (on : path.GoesOnLevel setup text i c stretch)
    (finite : Scalar.isFinite (c.start.get c.toolAxis) = true) :
    (∀ arc, c.arc = some arc → arc.plane.normal = c.toolAxis ∧ arc.helicalSpan = 0.0) ∧
      ∀ t, ¬Scalar.IsNaN t →
        Scalar.Agree ((c.positionAt t).get c.toolAxis) (c.start.get c.toolAxis) := by
  have level := on.start_eq_target built
  have normal : ∀ arc, c.arc = some arc → arc.plane.normal = c.toolAxis := fun arc harc =>
    congrArg Plane.normal ((fits_of_build built (Array.mem_of_getElem? on.command)).plane arc harc)
  constructor
  · intro arc harc
    obtain ⟨_, -, carried⟩ := Stretch.exists_carried (Toolpath.carried built) on.command
    rw [carried.helicalSpan_eq harc, normal arc harc, ← level]
    exact ⟨rfl, Binary64.sub_self finite⟩
  · intro t defined
    exact Command.agree_positionAt level finite (fun arc harc => (normal arc harc).symm) defined

/-- **Level moves stay level.** -/
theorem keepsLevel_of_build (built : Toolpath.build setup text = .ok path) :
    path.KeepsLevel setup text := by
  constructor
  case carried => exact Toolpath.carried built
  case move => exact fun i c stretch on => on.start_eq_target built
  case agree =>
    intro i c stretch on agree
    obtain ⟨stroke, start, target⟩ := on.exists_stroke built agree
    rw [start, target]
    exact setup.offsets.agree_toMachine c.state stroke agree
  case chain => exact fun i n first last => target_eq_of_chain built
  case planar => exact fun i c stretch on finite => on.planar built finite

/-- An arc behind a retract, with a line between them that does not move. -/
theorem keepsLevel_arc :
    let setup : Setup Float := {
      machine := .ofRapidFeed 5000.0
      offsets := {
        work := WorkOffsets.empty.insert "G54" ⟨10.1, 20.2, -5.3, 0.0, 0.0⟩
        tool := { ToolOffsets.empty with lengths := Table.empty.insert 1 ⟨100.0, 0.5⟩ } } }
    let text := "G43 H1 G0 Z5.1\nM5\nG2 X10 I5 F100"
    ∃ path c stretch, Toolpath.build setup text = .ok path ∧ c.arc.isSome ∧
      path.GoesOnLevel setup text 0 c stretch ∧ path.KeepsLevel setup text := by
  intro setup text
  have run : (Toolpath.build setup text).toOption.any (fun path =>
      path.commands[0]?.any fun before => path.commands[1]?.any fun c =>
        c.arc.isSome && decide (before.state.workOffset = c.state.workOffset
          ∧ before.state.lengthComp = c.state.lengthComp
          ∧ before.state.lengthRegister = c.state.lengthRegister
          ∧ before.state.plane = c.state.plane ∧ c.state.plane = .xy)) = true := by
    decide +kernel
  have course : (Course.ofLines setup.machine (programLines text)).stretches[1]?.any
      (fun stretch => decide (stretch.segment.start.z = stretch.segment.target.z)) = true := by
    decide +kernel
  obtain ⟨path, built, test⟩ := Toolpath.exists_of_any run
  obtain ⟨before, hbefore, test⟩ := (Option.any_eq_true _ _).mp test
  obtain ⟨c, hc, test⟩ := (Option.any_eq_true _ _).mp test
  obtain ⟨arc, alike⟩ := Bool.and_eq_true_iff.mp test
  obtain ⟨work, comp, register, plane, xy⟩ := of_decide_eq_true alike
  obtain ⟨stretch, listed, level⟩ := (Option.any_eq_true _ _).mp course
  have axis : c.toolAxis = .z := congrArg Plane.normal xy
  have on : path.GoesOnLevel setup text 0 c stretch := {
    command := hc
    listed
    alike := ⟨before, hbefore, work, comp, register, plane⟩
    level := by rw [axis]; exact of_decide_eq_true level }
  exact ⟨path, c, stretch, built, arc, on, keepsLevel_of_build built⟩

end Toolpath

end NumericalControl
