/-
  NumericalControl/Proofs/Playback/End.lean
  =========================================
  **The end of a toolpath.**  At the end a cursor stands at the number of commands, which
  is the end of the last one.  The number is exact up to `2 ^ 53`, and the whole of a
  duration is the duration, so the time that has passed is the end of the last command
  (`Cursor.elapsed_last`).

  That is the estimated time of the toolpath as long as no line pauses behind the last one
  that moves.  Such a pause belongs to no command, so a cursor never sees it, and the
  estimated time goes on where the cursor stops (`Cursor.estimatedTime_last`).
-/
import NumericalControl.Proofs.Playback.Within
import NumericalControl.Proofs.Toolpath.Pauses

namespace NumericalControl.Cursor

variable {path : Toolpath Float}

theorem segment_last (nonempty : 0 < path.size) (count : path.size ≤ 2 ^ 53) :
    (last path).segment = (path.size - 1, 1.0) := by
  have whole : Scalar.floor (last path).position = path.size := by
    rw [position_last (Binary64.zero_le_ofNat path.size), Binary64.floor_ofNat count]
  exact segment_of_floor_eq_size nonempty whole

/-- **At the end of a toolpath its last command has ended.** -/
theorem elapsed_last {c : Command Float} (h : path.commands.back? = some c)
    (count : path.size ≤ 2 ^ 53) : (last path).elapsed = c.endTime := by
  rw [Array.back?_eq_getElem?] at h
  have nonempty : 0 < path.size := Nat.zero_lt_of_lt (Array.getElem?_eq_some_iff.mp h).1
  have segment := segment_last nonempty count
  have command : (last path).command? = some c := by
    rw [command?, segment]
    exact h
  rw [elapsed, command, segment]
  simp only [Binary64.mul_one]
  rfl

/-- **The estimated time is the time at the end of the toolpath, and the pauses that close
    the program.**  Without such pauses both times are the same, wherever else the program
    pauses, drills or moves without a feed. -/
theorem estimatedTime_last {setup : Setup Float} {text : String}
    (built : Toolpath.build setup text = .ok path) (count : path.size ≤ 2 ^ 53) :
    path.stats.estimatedTime =
      (closingPauses (programLines text)).foldl (· + ·) (last path).elapsed := by
  obtain ⟨c, hc, time⟩ := Toolpath.estimatedTime_eq built
  rw [elapsed_last hc count]
  exact time

theorem estimatedTime_last_drilled :
    let setup : Setup Float := ⟨.ofRapidFeed 5000.0, .empty⟩
    let text := "G4 P2\nG81 X1 R2 Z-3 F50\nG4 P3\nG1 X7 F0"
    ∃ path, Toolpath.build setup text = .ok path ∧ path.size = 4 ∧
      path.stats.estimatedTime = (last path).elapsed := by
  intro setup text
  have run : (Toolpath.build setup text).toOption.any (fun path =>
      decide (path.size = 4)) = true := by
    decide +kernel
  obtain ⟨path, built, size⟩ := Toolpath.exists_of_any run
  have size : path.size = 4 := of_decide_eq_true size
  have closing : closingPauses (α := Float) (programLines text) = [] := by
    decide +kernel
  have time := estimatedTime_last built (by omega)
  rw [closing] at time
  exact ⟨path, built, size, time⟩

/-- **A cursor never sees a pause that closes the program.**  The move takes one second and
    the pause behind it two. -/
theorem elapsed_before_closing_pause :
    let setup : Setup Float := ⟨.ofRapidFeed 5000.0, .empty⟩
    ∃ path, Toolpath.build setup "G1 X10 F600\nG4 P2" = .ok path ∧
      (last path).elapsed = 1.0 ∧ path.stats.estimatedTime = 3.0 := by
  intro setup
  have run : (Toolpath.build setup "G1 X10 F600\nG4 P2").toOption.any (fun path =>
      decide ((last path).elapsed = 1.0 ∧ path.stats.estimatedTime = 3.0)) = true := by
    decide +kernel
  obtain ⟨path, built, times⟩ := Toolpath.exists_of_any run
  exact ⟨path, built, of_decide_eq_true times⟩

end NumericalControl.Cursor
