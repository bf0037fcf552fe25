/-
  NumericalControl/Toml/Token.lean
  ================================
  **Tokens of a document.**  The text of a document is divided into tokens before
  anything is asked about their meaning.  Each token starts where the one before it
  ends, and its first character tells what it is.
-/
import NumericalControl.Toml.Quoted

namespace NumericalControl.Toml

inductive Token where
  /-- A point, a comma, an equals sign, a bracket or a brace. -/
  | mark (c : Char)
  /-- Spaces and tabs, as written. -/
  | blank (text : List Char)
  | comment
  | lineEnd
  | quoted (q : Quoted)
  /-- A number or a word, or a part of one. -/
  | atom (text : List Char)
  deriving DecidableEq, Repr

/-- Writes every line end as a line feed. -/
def unifyLineEnds : List Char → List Char
  | [] => []
  | '\r' :: '\n' :: rest => '\n' :: unifyLineEnds rest
  | c :: rest => c :: unifyLineEnds rest

/-- The token with the given first character, and the text behind it. A carriage return
    that ends no line is no token, nor is a comment with a control character. -/
def token? (c : Char) (rest : List Char) : Option (Token × List Char) :=
  if isMark c then some (.mark c, rest)
  else if isSpace c then some (.blank (c :: rest.takeWhile isSpace), rest.dropWhile isSpace)
  else if c = '\n' then some (.lineEnd, rest)
  else if c = '\r' then none
  else if c = '#' then
    if (rest.takeWhile (· != '\n')).any isControl then none
    else some (.comment, rest.dropWhile (· != '\n'))
  else if c = '"' ∨ c = '\'' then
    let (q, behind) := Quoted.scan c rest
    some (.quoted q, behind)
  else some (.atom (c :: rest.takeWhile isAtomChar), rest.dropWhile isAtomChar)

theorem length_dropWhile_le (test : Char → Bool) (cs : List Char) :
    (cs.dropWhile test).length ≤ cs.length :=
  (List.dropWhile_suffix test).length_le

theorem length_of_token? {c : Char} {rest behind : List Char} {t : Token}
    (h : token? c rest = some (t, behind)) : behind.length ≤ rest.length := by
  unfold token? at h
  split at h
  · cases h; exact Nat.le_refl _
  · split at h
    · cases h; exact length_dropWhile_le _ _
    · split at h
      · cases h; exact Nat.le_refl _
      · split at h
        · cases h
        · split at h
          · split at h
            · cases h
            · cases h; exact length_dropWhile_le _ _
          · split at h
            · cases h; exact Quoted.length_scan _ _
            · cases h; exact length_dropWhile_le _ _

/-- The tokens of a text, none if some part of it is no token. -/
def tokens? : List Char → Option (List Token)
  | [] => some []
  | c :: rest =>
    match _found : token? c rest with
    | none => none
    | some (t, behind) => (tokens? behind).map (t :: ·)
termination_by cs => cs.length
decreasing_by exact Nat.lt_succ_of_le (length_of_token? _found)

end NumericalControl.Toml
