import VirtualPad.Document.Toml.Strings
import VirtualPad.Document.Toml.Words

/-!
# TOML: dates and times

A date is written `YYYY-MM-DD` and has to be a day of the calendar.  A time of day is written
`HH:MM:SS`, with or without a fraction of a second.  The two may be joined, and a time that is
joined to a date may be followed by its offset from universal time.
-/

namespace VirtualPad
namespace Toml

/-- A number of so many digits in a range. -/
def numeral? (width least most : Nat) (cs : List Char) : Option (Taken Nat) :=
  let digits := cs.take width
  let n := rowValue 10 digits
  if digits.length = width ∧ digits.all Char.isDigit ∧ least ≤ n ∧ n ≤ most then
    some (n, cs.drop width)
  else none

/-- The characters after a sign that has to come next. -/
def after? (sign : Char) : List Char → Option (List Char)
  | [] => none
  | c :: rest => if c == sign then some rest else none

/-! ## §1 Dates -/

/-- The year has a day more. -/
def isLeapYear (year : Nat) : Bool :=
  year % 4 == 0 && (year % 100 != 0 || year % 400 == 0)

def daysOf (year month : Nat) : Nat :=
  if month = 2 then (if isLeapYear year then 29 else 28)
  else if [4, 6, 9, 11].contains month then 30
  else 31

def skipDate? (cs : List Char) : Option (List Char) := do
  let (year, rest) ← numeral? 4 0 9999 cs
  let (month, rest) ← numeral? 2 1 12 (← after? '-' rest)
  let (_, rest) ← numeral? 2 1 (daysOf year month) (← after? '-' rest)
  return rest

/-! ## §2 Times -/

def skipMinutes? (cs : List Char) : Option (List Char) := do
  let (_, rest) ← numeral? 2 0 23 cs
  let (_, rest) ← numeral? 2 0 59 (← after? ':' rest)
  return rest

/-- The characters after a fraction, if there is one at the front. -/
def skipFraction : List Char → List Char
  | '.' :: rest =>
    let digits := rest.takeWhile Char.isDigit
    if digits.isEmpty then '.' :: rest else rest.drop digits.length
  | cs => cs

/-- The characters after a time of day.  A minute may have a leap second. -/
def skipTime? (cs : List Char) : Option (List Char) := do
  let (_, rest) ← numeral? 2 0 60 (← after? ':' (← skipMinutes? cs))
  return skipFraction rest

/-- The characters after an offset, if there is one at the front. -/
def skipOffset : List Char → List Char
  | [] => []
  | c :: rest =>
    if c == 'Z' || c == 'z' then rest
    else if c == '+' || c == '-' then (skipMinutes? rest).getD (c :: rest)
    else c :: rest

/-- The characters after the time that is joined to a date, if there is one at the front. -/
def skipJoined : List Char → List Char
  | [] => []
  | c :: rest =>
    if c == 'T' || c == 't' || c == ' ' then
      match skipTime? rest with
      | some rest => skipOffset rest
      | none => c :: rest
    else c :: rest

/-- A date, a time of day, or both. -/
def moment? (cs : List Char) : Option (Taken Value) :=
  let rest := match skipDate? cs with
    | some rest => some (skipJoined rest)
    | none => skipTime? cs
  rest.map fun rest => (.moment (String.ofList (cs.take (cs.length - rest.length))), rest)

end Toml
end VirtualPad
