/-
  NumericalControl/Toml/Number.lean
  =================================
  **Numbers of a document.**  A number is decimal, or has a base that a mark in front of
  its digits tells.  Underscores may part its digits; each stands between two of them.

      whole     sign? digits            no zero in front of further digits
      base      0x, 0o or 0b with digits of that base, maybe none
      float     whole [ . digits ] [ e sign? digits ]
      special   sign? inf  or  sign? nan

  Looks and value are kept apart.  A base mark without digits looks like a whole number,
  and so do digits that an underscore joins to a letter of the hexadecimal digits; what
  comes behind that letter is not looked at.  Neither denotes a number.
-/
import NumericalControl.Decimal
import NumericalControl.Scalar.Binary64
import NumericalControl.Toml.Character
import NumericalControl.Toml.Value

namespace NumericalControl.Toml

/-! ### Digits -/

/-- Whether every underscore comes behind a digit and before one. The flag tells whether
    the text itself comes behind a digit. -/
def partsDigits (isDigit : Char → Bool) : (behindDigit : Bool) → List Char → Bool
  | _, [] => true
  | behindDigit, '_' :: rest =>
    behindDigit && rest.head?.any isDigit && partsDigits isDigit false rest
  | _, c :: rest => partsDigits isDigit (isDigit c) rest

def withoutUnderscores (cs : List Char) : List Char := cs.filter (· != '_')

/-- Cuts a text behind the digits and underscores at its front. -/
def splitRun (cs : List Char) : List Char × List Char :=
  cs.span fun c => c.isDigit || c == '_'

/-- Whether a run of digits and underscores has a digit. -/
def hasDigit (run : List Char) : Bool := run.any Char.isDigit

/-- Whether a zero comes first and is not alone. -/
def hasLeadingZero (cs : List Char) : Bool := cs.head? == some '0' && cs.length != 1

/-! ### Whole numbers -/

/-- A number without a sign in another base, from the text behind the base mark. -/
def inBase? (base : Nat) (isDigit : Char → Bool) (cs : List Char) : Option Value :=
  let ds := withoutUnderscores cs
  if ds.all isDigit && partsDigits isDigit false cs then
    some (.integer (if ds.isEmpty then none else some (valueInBase base ds)))
  else none

/-- Whether the digits at the front of a text are all of it, or an underscore joins them
    to the rest and the rest has no space and is not that of a float. -/
def looksWhole (number : List Char) : Bool :=
  match number.dropWhile Char.isDigit with
  | [] => !number.isEmpty
  | '_' :: rest => !rest.any fun c => c == ' ' || c == '.' || c == 'e' || c == 'E'
  | _ => false

def integer? (cs : List Char) : Option Value :=
  let (negative, number) := Decimal.splitSign cs
  let ds := withoutUnderscores number
  if looksWhole number && !hasLeadingZero number && partsDigits isHexDigit false number then
    let size : Int := Decimal.valueOfDigits ds
    some (.integer (if ds.all Char.isDigit then some (if negative then -size else size) else none))
  else none

/-! ### Floats -/

/-- The digits behind a point, if there is one, and the text behind them. -/
def fraction? : List Char → Option (List Char × List Char)
  | '.' :: cs =>
    let (run, rest) := splitRun cs
    if hasDigit run then some (withoutUnderscores run, rest) else none
  | cs => some ([], cs)

/-- The power of ten of an exponent, which ends the text; zero without one. -/
def power? : List Char → Option Int
  | [] => some 0
  | mark :: cs =>
    let (negative, ds) := Decimal.splitSign cs
    let (run, rest) := splitRun ds
    if (mark == 'e' || mark == 'E') && hasDigit run && rest.isEmpty then
      let size : Int := Decimal.valueOfDigits (withoutUnderscores run)
      some (if negative then -size else size)
    else none

/-- A number with a point, an exponent, or both. One beyond the range of floats is
    recognised and has no value. -/
def float? (cs : List Char) : Option Value := do
  let (negative, number) := Decimal.splitSign cs
  let (run, rest) := splitRun number
  let (fraction, rest) ← fraction? rest
  let power ← power? rest
  if hasDigit run && !hasLeadingZero run && partsDigits Char.isDigit false number then
    let whole := withoutUnderscores run
    let decimal : Decimal :=
      ⟨negative, Decimal.valueOfDigits (whole ++ fraction), power - fraction.length⟩
    let x : Float := decimal.toScalar
    some (.float (if x.isFinite then some x else none))
  else none

/-- The values that are no numbers of their own: infinities and the undefined value. -/
def special? (cs : List Char) : Option Value :=
  let (negative, name) := Decimal.splitSign cs
  if name = ['i', 'n', 'f'] then
    some (.float (some (if negative then -Binary64.infinity else Binary64.infinity)))
  else if name = ['n', 'a', 'n'] then some (.float (some Binary64.nan))
  else none

def number? (cs : List Char) : Option Value :=
  match cs with
  | '0' :: 'x' :: ds => inBase? 16 isHexDigit ds
  | '0' :: 'o' :: ds => inBase? 8 (fun c => '0' ≤ c && c ≤ '7') ds
  | '0' :: 'b' :: ds => inBase? 2 (fun c => c == '0' || c == '1') ds
  | _ => (special? cs).or ((integer? cs).or (float? cs))

end NumericalControl.Toml
