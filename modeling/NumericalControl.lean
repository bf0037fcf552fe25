import NumericalControl.Machine.Document
import NumericalControl.Playback
import NumericalControl.Proofs.Arc.Radius
import NumericalControl.Proofs.Modal.Inches
import NumericalControl.Proofs.Modal.Numbers
import NumericalControl.Proofs.Modal.Order
import NumericalControl.Proofs.Modal.Passthrough
import NumericalControl.Proofs.Modal.Persistence
import NumericalControl.Proofs.Modal.Series
import NumericalControl.Proofs.Modal.Steps
import NumericalControl.Proofs.Offset.Tool
import NumericalControl.Proofs.Offset.Work
import NumericalControl.Proofs.Playback.End
import NumericalControl.Proofs.Playback.Lookup
import NumericalControl.Proofs.Playback.Places
import NumericalControl.Proofs.Playback.Seeking
import NumericalControl.Proofs.Segment.Decision
import NumericalControl.Proofs.Text.Tokens
import NumericalControl.Proofs.Toolpath.ArcOffset
import NumericalControl.Proofs.Toolpath.Bounds
import NumericalControl.Proofs.Toolpath.Coverage
import NumericalControl.Proofs.Toolpath.Flags
import NumericalControl.Proofs.Toolpath.Fold
import NumericalControl.Proofs.Toolpath.Level
import NumericalControl.Proofs.Toolpath.LineEnds
import NumericalControl.Proofs.Toolpath.Missing
import NumericalControl.Proofs.Toolpath.Rapids
import NumericalControl.Proofs.Toolpath.Refusal
import NumericalControl.Proofs.Toolpath.Renumbering
import NumericalControl.Proofs.Toolpath.Stream
import NumericalControl.Proofs.Toolpath.Times
import NumericalControl.Proofs.Toolpath.Totals
import NumericalControl.Proofs.Toolpath.Translation
import NumericalControl.Proofs.Word.Comment
import NumericalControl.Proofs.Word.Grammar
import NumericalControl.Proofs.Word.Packing
import NumericalControl.Proofs.Word.Reading
import NumericalControl.Toolpath.Builder
