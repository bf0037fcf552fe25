/-
  NumericalControl/Toml/DateTime.lean
  ===================================
  **Dates and times.**  A setup has no use for dates, but a document may hold them, so
  they have to be told from what is no date.

      date        year-month-day, with as many days as the month has
      time        hour:minute[:second[.fraction]]
      date time   a date, one of T, t and a space, a time, and maybe an offset

  The offset from universal time is the letter Z, or a sign with hours and minutes.  Each
  part is read off the front of a text, and gives the text behind it.
-/
import NumericalControl.Decimal

namespace NumericalControl.Toml.DateTime

/-- Reads a number of exactly `count` digits off the front. -/
def number? (count : Nat) (cs : List Char) : Option (Nat × List Char) :=
  let ds := cs.takeWhile Char.isDigit
  if ds.length = count then some (Decimal.valueOfDigits ds, cs.dropWhile Char.isDigit) else none

def behind? (c : Char) : List Char → Option (List Char)
  | [] => none
  | first :: rest => if first = c then some rest else none

/-- Leap years are those that 4 divides, but of the full centuries only every fourth. -/
def isLeapYear (year : Nat) : Bool :=
  year % 4 == 0 && (year % 100 != 0 || year % 400 == 0)

/-- Days of a month; the first month has number 1. -/
def daysOfMonth (year month : Nat) : Nat :=
  if month = 2 then (if isLeapYear year then 29 else 28)
  else if month = 4 ∨ month = 6 ∨ month = 9 ∨ month = 11 then 30
  else 31

def afterDate? (cs : List Char) : Option (List Char) := do
  let (year, cs) ← number? 4 cs
  let (month, cs) ← number? 2 (← behind? '-' cs)
  let (day, cs) ← number? 2 (← behind? '-' cs)
  if 1 ≤ month ∧ month ≤ 12 ∧ 1 ≤ day ∧ day ≤ daysOfMonth year month then some cs else none

def afterClock? (cs : List Char) : Option (List Char) := do
  let (hour, cs) ← number? 2 cs
  let (minute, cs) ← number? 2 (← behind? ':' cs)
  if hour ≤ 23 ∧ minute ≤ 59 then some cs else none

/-- The text behind the fraction of a second, if a point starts one. -/
def afterFraction? : List Char → Option (List Char)
  | '.' :: cs =>
    if cs.head?.any Char.isDigit then some (cs.dropWhile Char.isDigit) else none
  | cs => some cs

/-- The text behind a time. The second number 60 is a leap second. -/
def afterTime? (cs : List Char) : Option (List Char) := do
  let cs ← afterClock? cs
  match behind? ':' cs with
  | none => some cs
  | some cs =>
    let (second, cs) ← number? 2 cs
    if second ≤ 60 then afterFraction? cs else none

def isOffset : List Char → Bool
  | [c] => c == 'Z' || c == 'z'
  | c :: cs => (c == '+' || c == '-') && afterClock? cs == some []
  | [] => false

/-- Whether a text is a time that may be followed by an offset. -/
def isTimeWithOffset (cs : List Char) : Bool :=
  (afterTime? cs).any fun rest => rest.isEmpty || isOffset rest

def isDate (cs : List Char) : Bool := afterDate? cs == some []

/-- Whether a text is a date, a time, or both. -/
def isDateTime (cs : List Char) : Bool :=
  match afterDate? cs with
  | some [] => true
  | some (c :: rest) => (c == 'T' || c == 't' || c == ' ') && isTimeWithOffset rest
  | none => afterTime? cs == some []

end NumericalControl.Toml.DateTime
