/-
  NumericalControl/Proofs/Toolpath/LineEnds.lean
  ==============================================
  **Blanks at the ends of lines do not matter.**  A builder uses the text of a line twice:
  it reads the line, and it gives the text, trimmed, to the commands of the line.  Neither
  knows of blanks at the ends of the line, so a builder takes a line as it takes the
  trimmed line (`Builder.takeLine_trimmed`).

  Texts that have the same lines, each of them trimmed, therefore lead to the same toolpath
  or to the same fault.  One way to change nothing but such blanks is to end the lines in
  another way (`Toolpath.build_of_trimmed`).
-/
import NumericalControl.Proofs.Text.Lines
import NumericalControl.Proofs.Toolpath.Renumbering
import NumericalControl.Proofs.Word.Comment

namespace NumericalControl

variable {α : Type} [Scalar α]

theorem Builder.takeLine_trimmed (b : Builder α) (text : String) :
    b.takeLine (Text.trimmed text) = b.takeLine text := by
  have source : Text.trim (Text.trimmed text).toList = Text.trim text.toList := by
    rw [Text.trimmed, String.toList_ofList, Text.trim_trim]
  rw [takeLine, takeLine, Line.read_trimmed, source]

theorem Builder.pushLine_trimmed (b : Builder α) (text : String) :
    b.pushLine (Text.trimmed text) = b.pushLine text := by
  rw [pushLine, pushLine, takeLine_trimmed]

namespace Toolpath

theorem ofLines_map_trimmed (setup : Setup α) (lines : List String) :
    ofLines setup (lines.map Text.trimmed) = ofLines setup lines := by
  have pushed : (fun b text => Builder.pushLine b (Text.trimmed text)) =
      (Builder.pushLine : Builder α → String → _) := by
    funext b text
    exact b.pushLine_trimmed text
  simp only [ofLines, List.foldlM_map, pushed]

theorem map_trimmed_programLines (text : String) :
    (programLines text).map Text.trimmed =
      ((Text.lines text.toList).map Text.trim).map String.ofList := by
  simp [programLines, Text.trimmed, Function.comp_def]

/-- **Blanks at the ends of lines do not matter**, nor does a carriage return in front of
    every line feed. -/
theorem build_of_trimmed (setup : Setup α) :
    (∀ text text' : String,
      (programLines text).map Text.trimmed = (programLines text').map Text.trimmed →
      build setup text = build setup text') ∧
    ∀ text : String,
      build setup (String.ofList (Text.withReturns text.toList)) = build setup text := by
  have alike : ∀ text text' : String,
      (programLines text).map Text.trimmed = (programLines text').map Text.trimmed →
      build setup text = build setup text' := by
    intro text text' same
    calc build setup text
      _ = ofLines setup ((programLines text).map Text.trimmed) := by
        rw [ofLines_map_trimmed, build_eq_ofLines]
      _ = ofLines setup ((programLines text').map Text.trimmed) := by rw [same]
      _ = build setup text' := by rw [ofLines_map_trimmed, build_eq_ofLines]
  refine ⟨alike, fun text => alike _ _ ?_⟩
  rw [map_trimmed_programLines, map_trimmed_programLines, String.toList_ofList,
    Text.map_trim_lines_withReturns]

/-- Blanks of several kinds around a mark of the program's end, in a comment that stays open,
    behind a piece that is no word and in front of a line feed, and a line of blanks. -/
theorem build_of_trimmed_program :
    let setup : Setup Float := ⟨.ofRapidFeed 5000.0, .empty⟩
    let text := "%\n\tG1 X1 F100 (to \t\n \nX2 ??\u2003"
    let text' := " %\r\nG1 X1 F100 (to\r\r\n\n\u00a0X2 ??\n"
    (programLines text).map Text.trimmed = (programLines text').map Text.trimmed ∧
      build setup text = build setup text' ∧
      build setup (String.ofList (Text.withReturns text.toList)) = build setup text' ∧
      (build setup text).toOption.any (fun path =>
        decide (path.commands.toList.map (·.source) = ["G1 X1 F100 (to", "X2 ??"] ∧
          path.diagnostics.toList.map (·.line) = [4])) = true := by
  intro setup text text'
  have same : (programLines text).map Text.trimmed = (programLines text').map Text.trimmed := by
    decide +kernel
  have alike := build_of_trimmed setup
  refine ⟨same, alike.1 _ _ same, ?_, by decide +kernel⟩
  exact (alike.2 text).trans (alike.1 _ _ same)

end Toolpath

end NumericalControl
