/-
  NumericalControl/Toml/Quoted.lean
  =================================
  **Strings in quotes.**  Where a string ends is settled by its quotes alone.  Whether
  what stands between them is a text is asked only afterwards, so a string may be found
  that denotes nothing.

      "..."        on one line, with escapes
      '...'        on one line, as written
      """..."""    on several lines, with escapes; a backslash at the end joins lines
      '''...'''    on several lines, as written
-/
import NumericalControl.Toml.Character

namespace NumericalControl.Toml

structure Quoted where
  /-- Double quotes allow escapes. -/
  escapes : Bool
  /-- Three quotes on either side allow several lines. -/
  long : Bool
  /-- What stands between the quotes. -/
  body : List Char
  /-- Whether the closing quotes are there. -/
  closed : Bool
  deriving DecidableEq, Repr

namespace Quoted

/-! ### Where a string ends -/

/-- The body of a string on one line, whether it is closed, and the text behind it. A
    line end closes nothing, but the body ends there. The flag tells whether the text
    comes behind a backslash that escapes. -/
def lineBody (quote : Char) : (escaped : Bool) → List Char → List Char × Bool × List Char
  | _, [] => ([], false, [])
  | escaped, c :: rest =>
    if c = '\n' then ([], false, c :: rest)
    else if c = quote ∧ !escaped then ([], true, rest)
    else
      let (body, closed, behind) := lineBody quote (quote == '"' && c == '\\' && !escaped) rest
      (c :: body, closed, behind)

/-- The body of a string of several lines, whether it is closed, and the text behind it.
    Up to two quotes in front of the closing three belong to the body. -/
def longBody (quote : Char) : (escaped : Bool) → List Char → List Char × Bool × List Char
  | _, [] => ([], false, [])
  | escaped, c :: rest =>
    if c = quote ∧ !escaped ∧ rest.take 2 = [quote, quote] then
      let more := ((rest.drop 2).take 2).takeWhile (· = quote)
      (more, true, rest.drop (2 + more.length))
    else
      let (body, closed, behind) := longBody quote (quote == '"' && c == '\\' && !escaped) rest
      (c :: body, closed, behind)

/-- The string behind its first quote, and the text behind the string. -/
def scan (quote : Char) (cs : List Char) : Quoted × List Char :=
  if cs.take 2 = [quote, quote] then
    let (body, closed, behind) := longBody quote false (cs.drop 2)
    (⟨quote == '"', true, body, closed⟩, behind)
  else
    let (body, closed, behind) := lineBody quote false cs
    (⟨quote == '"', false, body, closed⟩, behind)

theorem length_lineBody (quote : Char) (escaped : Bool) (cs : List Char) :
    (lineBody quote escaped cs).2.2.length ≤ cs.length := by
  induction cs generalizing escaped with
  | nil => simp [lineBody]
  | cons c rest ih =>
    simp only [lineBody]
    split
    · exact Nat.le_refl _
    · split
      · exact Nat.le_succ _
      · exact Nat.le_succ_of_le (ih _)

theorem length_longBody (quote : Char) (escaped : Bool) (cs : List Char) :
    (longBody quote escaped cs).2.2.length ≤ cs.length := by
  induction cs generalizing escaped with
  | nil => simp [longBody]
  | cons c rest ih =>
    simp only [longBody]
    split
    · simp only [List.length_drop, List.length_cons]
      omega
    · exact Nat.le_succ_of_le (ih _)

theorem length_scan (quote : Char) (cs : List Char) :
    (scan quote cs).2.length ≤ cs.length := by
  unfold scan
  split
  · exact Nat.le_trans (length_longBody quote false _) (by simp)
  · exact length_lineBody quote false cs

/-! ### What a string denotes -/

/-- The character with the code that `n` hexadecimal digits tell, and the text behind
    them. -/
def codePoint? (n : Nat) (cs : List Char) : Option (Char × List Char) :=
  let ds := cs.take n
  let code := valueInBase 16 ds
  if ds.length = n ∧ ds.all isHexDigit ∧ code.isValidChar then
    some (Char.ofNat code, cs.drop n)
  else none

/-- The character that an escape denotes, from the text behind its backslash, and the
    text behind the escape. -/
def escape? : List Char → Option (Char × List Char)
  | 'b' :: rest => some ('\x08', rest)
  | 't' :: rest => some ('\t', rest)
  | 'n' :: rest => some ('\n', rest)
  | 'f' :: rest => some ('\x0c', rest)
  | 'r' :: rest => some ('\r', rest)
  | 'e' :: rest => some ('\x1b', rest)
  | '"' :: rest => some ('"', rest)
  | '\\' :: rest => some ('\\', rest)
  | 'x' :: rest => codePoint? 2 rest
  | 'u' :: rest => codePoint? 4 rest
  | 'U' :: rest => codePoint? 8 rest
  | _ => none

/-- The text that a line is joined to, if nothing else follows the backslash on it: all
    blank space is skipped. -/
def joined? (cs : List Char) : Option (List Char) :=
  match cs.dropWhile isSpace with
  | '\n' :: rest => some (rest.dropWhile fun c => isSpace c || c == '\n')
  | _ => none

/-- Whether a character may stand in a string as itself. -/
def mayStand (long : Bool) (c : Char) : Bool := !isControl c || (long && c == '\n')

/-- The text of a body with escapes. Each step takes a character, so the length of the
    body is fuel enough. -/
def unescape? (long : Bool) : (fuel : Nat) → List Char → Option (List Char)
  | _, [] => some []
  | 0, _ => none
  | fuel + 1, '\\' :: rest =>
    match if long then joined? rest else none with
    | some rest => unescape? long fuel rest
    | none => do
      let (c, rest) ← escape? rest
      return c :: (← unescape? long fuel rest)
  | fuel + 1, c :: rest =>
    if mayStand long c then (unescape? long fuel rest).map (c :: ·) else none

/-- The text that a string denotes. A line end directly behind three opening quotes is
    no part of it. -/
def text? (q : Quoted) : Option (List Char) :=
  let body := if q.long ∧ q.body.head? = some '\n' then q.body.drop 1 else q.body
  if !q.closed then none
  else if q.escapes then unescape? q.long body.length body
  else if body.all (mayStand q.long) then some body
  else none

end Quoted

end NumericalControl.Toml
