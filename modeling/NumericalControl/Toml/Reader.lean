/-
  NumericalControl/Toml/Reader.lean
  =================================
  **Reading statements.**  A `Reader` takes what it recognises off the front of a row of
  tokens, or refuses the row.  It looks at the kinds of tokens only, never at what they
  denote.

      header   [ key ]   or  [[ key ]]
      entry    key = value
      value    number or word, string, [ value, ... ], or key = value, ... in braces

  Parts of a key may be missing, and so may the value at the end of a line or of a table
  in braces.  They are kept as missing: they denote nothing, and the document is refused
  on their account later.  A header whose key breaks off behind a point, or never starts,
  need not be closed, and the rest of its line is passed over.

  Brackets and braces may hold line ends and comments around all of their parts; a key
  and the rest of a line may not.
-/
import NumericalControl.Toml.Statement
import NumericalControl.Toml.Token

namespace NumericalControl.Toml

/-- Takes something off the front of a row of tokens. -/
abbrev Reader (β : Type) := StateT (List Token) Option β

/-! ### Steps of a reader -/

/-- The next token, left in place. -/
def peek? : Reader (Option Token) := fun ts => some (ts.head?, ts)

/-- Takes the given mark and says whether it was there. -/
def accepts (c : Char) : Reader Bool := fun ts =>
  if ts.head? = some (.mark c) then some (true, ts.drop 1) else some (false, ts)

/-- Takes the given mark, which must be there. -/
def expect (c : Char) : Reader Unit := do
  if !(← accepts c) then failure

def Token.isBlank : Token → Bool
  | .blank _ => true
  | _ => false

def Token.isGap : Token → Bool
  | .blank _ | .comment | .lineEnd => true
  | _ => false

def skipBlanks : Reader Unit := fun ts => some ((), ts.dropWhile Token.isBlank)

def skipGap : Reader Unit := fun ts => some ((), ts.dropWhile Token.isGap)

/-- Whether the rest of the line holds at most a comment. -/
def isAtEnd : Reader Bool := do
  match ← peek? with
  | none | some .lineEnd | some .comment => return true
  | _ => return false

/-- Skips blank space behind which the line must hold at most a comment. -/
def endLine : Reader Unit := do
  skipBlanks
  if !(← isAtEnd) then failure

def skipLine : Reader Unit := fun ts => some ((), ts.dropWhile (· != .lineEnd))

/-! ### Keys and values -/

/-- A part of a key, which is missing when none comes next. -/
def keyPart : Reader Piece := fun ts =>
  match ts with
  | .atom text :: rest => some (.bare text, rest)
  | .quoted q :: rest => some (.quoted q, rest)
  | _ => some (.missing, ts)

/-- A dotted key, with blank space around its points and behind it. Each step takes a
    point, so the number of tokens is fuel enough. -/
def keyParts : (fuel : Nat) → Reader (List Piece)
  | 0 => failure
  | fuel + 1 => do
    let part ← keyPart
    skipBlanks
    if ← accepts '.' then
      skipBlanks
      return part :: (← keyParts fuel)
    return [part]

def key : Reader (List Piece) := do keyParts ((← get).length + 1)

def breaksOff (parts : List Piece) : Bool := parts.getLast? == some .missing

/-- The text of atoms and points in a row, with the blank space between two of them when
    the second is an atom. -/
def bareText : List Token → List Char × List Token
  | .atom text :: rest =>
    let (more, behind) := bareText rest
    (text ++ more, behind)
  | .mark '.' :: rest =>
    let (more, behind) := bareText rest
    ('.' :: more, behind)
  | .blank space :: .atom text :: rest =>
    let (more, behind) := bareText rest
    (space ++ text ++ more, behind)
  | ts => ([], ts)

def pieceValue : Reader Piece := fun ts =>
  match ts with
  | .quoted q :: rest => some (.quoted q, rest)
  | .atom _ :: _ | .mark '.' :: _ =>
    let (text, behind) := bareText ts
    some (.bare text, behind)
  | _ => none

/-- How many brackets and braces may be open at once. -/
def bracketLimit : Nat := 80

mutual

/-- A value, with at most `depth` brackets and braces around any of its parts. Each step
    takes a token, so the number of tokens is fuel enough. -/
def value : (fuel depth : Nat) → Reader Written
  | 0, _ => failure
  | fuel + 1, depth => do
    if ← accepts '[' then
      match depth with
      | 0 => failure
      | depth + 1 => return .array (← items fuel depth)
    if ← accepts '\x7b' then
      match depth with
      | 0 => failure
      | depth + 1 => return .table (← members fuel depth)
    return .piece (← pieceValue)

/-- The items of an array, up to its closing bracket. -/
def items : (fuel depth : Nat) → Reader (List Written)
  | 0, _ => failure
  | fuel + 1, depth => do
    skipGap
    if ← accepts ']' then return []
    let item ← value fuel depth
    skipGap
    if ← accepts ',' then return item :: (← items fuel depth)
    expect ']'
    return [item]

/-- The members of a table in braces, up to the closing brace. The value of the last one
    may be missing. -/
def members : (fuel depth : Nat) → Reader (List (List Piece × Written))
  | 0, _ => failure
  | fuel + 1, depth => do
    skipGap
    if ← accepts '\x7d' then return []
    let path ← key
    skipGap
    if ← accepts '\x7d' then return [(path, .piece .missing)]
    expect '='
    skipGap
    if ← accepts '\x7d' then return [(path, .piece .missing)]
    let item ← value fuel depth
    skipGap
    if ← accepts ',' then return (path, item) :: (← members fuel depth)
    expect '\x7d'
    return [(path, item)]

end

/-! ### Statements -/

/-- The header of a table, or of a further table of an array, behind its first bracket. -/
def header : Reader Statement := do
  let isArray ← accepts '['
  skipBlanks
  let path ← key
  if ← accepts ']' then
    if isArray then expect ']'
    endLine
  else
    if !breaksOff path then failure
    skipLine
  return if isArray then .arrayHeader path else .header path

/-- One statement, with the rest of its line. -/
def statement : Reader Statement := do
  if ← accepts '[' then return ← header
  let path ← key
  expect '='
  skipBlanks
  let v ← if ← isAtEnd then pure (.piece .missing) else value ((← get).length + 1) bracketLimit
  endLine
  return .entry path v

/-- All statements of a row of tokens. Each takes a token, so their number is fuel
    enough. -/
def statements : (fuel : Nat) → Reader (List Statement)
  | 0 => failure
  | fuel + 1 => do
    skipGap
    if (← peek?).isNone then return []
    let first ← statement
    return first :: (← statements fuel)

/-- The statements of a text. A byte order mark in front is no part of it. -/
def statements? (text : String) : Option (List Statement) := do
  let cs := text.toList
  let cs := if cs.head? = some '\ufeff' then cs.drop 1 else cs
  let ts ← tokens? (unifyLineEnds cs)
  return ((← (statements (ts.length + 1)).run ts)).1

end NumericalControl.Toml
