/-
  NumericalControl/Diagnostic.lean
  ================================
  **Findings.**  Faulty or doubtful input does not stop the reading of a program; it
  leaves a finding.  Each finding names its cause and carries what its message tells.
  The kind of a finding follows from the cause, and so does its text.
-/
import NumericalControl.Decimal.Text
import NumericalControl.Modal.Code
import NumericalControl.Scalar.Binary64

namespace NumericalControl

/-- What is remarkable about a line. -/
inductive Finding (α : Type) where
  /-- A piece of text that is no word. -/
  | unreadable (piece : String)
  /-- A second word of one group of modes. -/
  | conflict (word : Word α)
  /-- An unknown G code. -/
  | unsupportedGCode (word : Word α)
  /-- An unknown M code. -/
  | unsupportedMCode (word : Word α)
  /-- A value that its letter does not admit. -/
  | invalidValue (word : Word α)
  /-- A letter without a meaning. -/
  | unsupportedLetter (word : Word α)
  | dwellWithoutTime
  | axesPassedThrough
  | axesWithoutMotion
  /-- A hole without both of its levels. -/
  | incompleteHole
  /-- An arc given by its center and by its radius. -/
  | centerAndRadius
  | depthAboveRPlane
  | missingWorkOffset (name : String)
  | lengthRegisterZero
  | missingLength (register : Nat)
  /-- Cutter compensation, which is told and not applied. -/
  | cutterReported (side : Side) (register : Nat) (radius : α)
  | missingDiameter (register : Nat)
  | zeroFeed
  | zeroRadius
  | undeterminedCenter
  /-- An arc with neither center nor radius. -/
  | centerMissing (plane : Plane)
  | shortRadius (radius : α)
  | fullCircle
  | radiusMismatch (start target : α)
  /-- A move that leaves the travel limits. -/
  | outsideLimits (target : Position α)
  deriving DecidableEq, Repr

/-- The part of the work in which a finding arises. -/
inductive Kind where
  | lexical | semantic | geometric | limit
  deriving DecidableEq, Repr

/-- A finding on a line; the first line has number 1. -/
structure Diagnostic (α : Type) where
  line : Nat
  finding : Finding α
  deriving DecidableEq, Repr

namespace Finding

def kind {α : Type} : Finding α → Kind
  | unreadable _ => .lexical
  | zeroRadius | undeterminedCenter | centerMissing _ | shortRadius _ | fullCircle
  | radiusMismatch _ _ => .geometric
  | outsideLimits _ => .limit
  | _ => .semantic

open Decimal.Text

/-- A code as it is shown: its whole number, or the value written out. -/
def codeText (value : Float) : String :=
  match codeNumber? value with
  | some n => toString n
  | none => shortest value

/-- The ending of every finding on an arc that is replaced by a straight move. -/
def straightened (reason : String) : String := reason ++ "; resolved as a straight feed move"

/-- The G code that runs the cutter on a side of the path. -/
def cutterCode : Side → Nat
  | .left => 41
  | .right => 42

def message : Finding Float → String
  | unreadable piece => "unparsable token '" ++ piece ++ "' dropped"
  | conflict w =>
    w.letter.toString ++ codeText w.value
      ++ " conflicts with an earlier word in the same modal group; last one wins"
  | unsupportedGCode w =>
    "unsupported code G" ++ codeText w.value ++ "; line passed through without motion"
  | unsupportedMCode w => "unsupported code M" ++ codeText w.value ++ " ignored"
  | invalidValue w =>
    "invalid value for " ++ w.letter.toString ++ ": " ++ shortest w.value ++ "; word ignored"
  | unsupportedLetter w =>
    "unsupported word " ++ w.letter.toString ++ shortest w.value ++ " ignored"
  | dwellWithoutTime => "G4 without a P word; dwell ignored"
  | axesPassedThrough => "axis words on a passthrough line were ignored"
  | axesWithoutMotion => "axis words with no active motion mode were ignored"
  | incompleteHole => "drill cycle needs both R and Z; no hole drilled"
  | centerAndRadius => "arc has both center offsets and R; center offsets win"
  | depthAboveRPlane => "drill depth is above the R plane"
  | missingWorkOffset name =>
    "work offset " ++ name ++ " is not in the offset table; using zero translation"
  | lengthRegisterZero => "G43 with H0; no length compensation applied"
  | missingLength register =>
    "H" ++ toString register ++ " is not in the tool offset table; length compensation is zero"
  | cutterReported side register radius =>
    "G" ++ toString (cutterCode side) ++ " D" ++ toString register ++ " (radius "
      ++ fixed 4 radius ++ ") is reported only; the path is not offset"
  | missingDiameter register => "D" ++ toString register ++ " is not in the tool offset table"
  | zeroFeed => "feed move with zero feed rate; no time estimated"
  | zeroRadius => straightened "arc has zero radius"
  | undeterminedCenter =>
    straightened "R-form arc with coincident start and end has no unique center"
  | centerMissing plane =>
    straightened ("arc has neither " ++ plane.offsetLetters.1.toString ++ "/"
      ++ plane.offsetLetters.2.toString ++ " offsets nor R")
  | shortRadius radius =>
    "R" ++ shortest radius ++ " is shorter than half the chord; arc clamped to a semicircle"
  | fullCircle => "arc start and end coincide; resolved as a full 360° circle"
  | radiusMismatch start target =>
    "arc start radius " ++ fixed 4 start ++ " and end radius " ++ fixed 4 target ++ " differ"
  | outsideLimits p =>
    "move to X" ++ fixed 3 p.x ++ " Y" ++ fixed 3 p.y ++ " Z" ++ fixed 3 p.z
      ++ " leaves the machine travel limits"

end Finding

end NumericalControl
