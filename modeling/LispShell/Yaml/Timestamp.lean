/-
Dates and times.

A date is a year of four digits, a month and a day of one or two, with
dashes between. A time may follow: after `T` or `t` with an offset from
the meridian, or after blanks without one. Its hour, minute and second
have one or two digits, and a fraction may follow.
-/
import LispShell.Decimal.Numeral

namespace LispShell.Yaml.Timestamp

/-- How many days a month has. -/
def daysIn (year month : Nat) : Nat :=
  if month == 2 then
    (if year % 4 == 0 && (year % 100 != 0 || year % 400 == 0) then 29 else 28)
  else if month == 4 || month == 6 || month == 9 || month == 11 then 30 else 31

/-- Reads a number of one or two digits. -/
def twoDigits? : List Char → Option (Nat × List Char)
  | a :: b :: rest =>
    match Decimal.digit? a, Decimal.digit? b with
    | some x, some y => some (10 * x + y, rest)
    | some x, none => some (x, b :: rest)
    | none, _ => none
  | [a] => (Decimal.digit? a).map (·, [])
  | [] => none

/-- Reads one given character. -/
def expect? (c : Char) : List Char → Option (List Char)
  | x :: rest => if x == c then some rest else none
  | [] => none

/-- Reads a date. -/
def date? (cs : List Char) : Option (List Char) := do
  let year ← Decimal.nat? (cs.takeWhile Char.isDigit)
  if (cs.takeWhile Char.isDigit).length != 4 then none
  let cs ← expect? '-' (cs.drop 4)
  let (month, cs) ← twoDigits? cs
  let cs ← expect? '-' cs
  let (day, cs) ← twoDigits? cs
  if 1 ≤ month && month ≤ 12 && 1 ≤ day && day ≤ daysIn year month then some cs else none

/-- Passes over a fraction of a second, if there is one. -/
def skipFraction : List Char → List Char
  | p :: d :: rest =>
    if (p == '.' || p == ',') && d.isDigit then rest.dropWhile Char.isDigit else p :: d :: rest
  | cs => cs

/-- Reads a time of the day. -/
def time? (cs : List Char) : Option (List Char) := do
  let (hour, cs) ← twoDigits? cs
  let cs ← expect? ':' cs
  let (minute, cs) ← twoDigits? cs
  let cs ← expect? ':' cs
  let (second, cs) ← twoDigits? cs
  if hour < 24 && minute < 60 && second < 60 then some (skipFraction cs) else none

/-- Whether the characters are an offset from the meridian. -/
def isOffset : List Char → Bool
  | ['Z'] => true
  | [sign, a, b, ':', c, d] =>
    (sign == '+' || sign == '-')
      && (match Decimal.nat? [a, b], Decimal.nat? [c, d] with
        | some hours, some minutes => hours ≤ 24 && minutes ≤ 60
        | _, _ => false)
  | _ => false

/-- Whether the characters are a date, or a date and a time. -/
def holds (cs : List Char) : Bool :=
  match date? cs with
  | none => false
  | some [] => true
  | some (c :: rest) =>
    if c == 'T' || c == 't' then ((time? rest).map isOffset).getD false
    else if c == ' ' then
      match time? (rest.dropWhile (· == ' ')) with
      | some after => after.isEmpty
      | none => false
    else false

end LispShell.Yaml.Timestamp
