import Enclosure.Number.Digits

/-!
# Dates

Dates of the proleptic Gregorian calendar in universal time. Days are counted from 1 January 1970; a
date may be given with fields out of range and is then brought into range.
-/

namespace Enclosure

structure Date where
  year : Int
  /-- From 1. -/
  month : Nat
  day : Nat
  hour : Nat
  minute : Nat
  second : Nat
  /-- From 0 for Sunday. -/
  weekday : Nat
  /-- From 0 for 1 January. -/
  yearday : Nat
  deriving DecidableEq, Repr

namespace Date

def isLeap (y : Int) : Bool := y % 4 == 0 && (y % 100 != 0 || y % 400 == 0)

/-- Days from 1 January 1970 to 1 January of a year. -/
def yearStart (y : Int) : Int :=
  let p := y - 1
  365 * (y - 1970) + (p / 4 - p / 100 + p / 400) - 477

def monthLengths (y : Int) : List Nat :=
  [31, if isLeap y then 29 else 28, 31, 30, 31, 30, 31, 31, 30, 31, 30, 31]

/-- Days of a year before a month counted from zero. -/
def monthStart (y : Int) (m : Nat) : Nat := ((monthLengths y).take m).foldl (· + ·) 0

/-- Seconds since the start of 1970 of a date whose fields may be out of range; the month is counted
from zero. -/
def seconds (year month day hour minute second : Int) : Int :=
  let y := year + month / 12
  let m := (month % 12).toNat
  let days := yearStart y + monthStart y m + (day - 1)
  ((days * 24 + hour) * 60 + minute) * 60 + second

/-- The month, from zero, and the day, from zero, of a day of the year. -/
def monthOf : List Nat → Nat → Nat → Nat × Nat
  | [], m, d => (m, d)
  | n :: rest, m, d => if d < n then (m, d) else monthOf rest (m + 1) (d - n)

/-- The year of a day, found from a guess that is at most one off. -/
def yearOf (day : Int) : Int :=
  let guess := 1970 + day * 400 / 146097
  if day < yearStart guess then guess - 1
  else if yearStart (guess + 1) ≤ day then guess + 1
  else guess

def ofSeconds (t : Int) : Date :=
  let day := t / 86400
  let rest := (t % 86400).toNat
  let y := yearOf day
  let yearday := (day - yearStart y).toNat
  let (m, d) := monthOf (monthLengths y) 0 yearday
  { year := y, month := m + 1, day := d + 1, hour := rest / 3600, minute := rest / 60 % 60,
    second := rest % 60, weekday := ((day + 4) % 7).toNat, yearday }

def dayNames : List String :=
  ["Sunday", "Monday", "Tuesday", "Wednesday", "Thursday", "Friday", "Saturday"]

def monthNames : List String :=
  ["January", "February", "March", "April", "May", "June", "July", "August", "September",
   "October", "November", "December"]

def short (s : String) : String := (s.take 3).toString

/-- The year and number of the week, weeks beginning on Monday and belonging to the year of their
Thursday. -/
def isoWeek (d : Date) : Int × Nat :=
  let w := (d.weekday + 6) % 7
  let week := ((d.yearday : Int) - w + 10) / 7
  let weeksIn (y : Int) : Int :=
    let first := ((yearStart y + 4) % 7 + 6) % 7
    if first == 3 || (first == 2 && isLeap y) then 53 else 52
  if week < 1 then (d.year - 1, (weeksIn (d.year - 1)).toNat)
  else if weeksIn d.year < week then (d.year + 1, 1)
  else (d.year, week.toNat)

def two (n : Nat) : String := Digits.padded 2 n

def spaced (n : Nat) : String := (if n < 10 then " " else "") ++ Digits.ofNat n

def hour12 (d : Date) : Nat := if d.hour % 12 == 0 then 12 else d.hour % 12

def half (d : Date) : String := if d.hour < 12 then "AM" else "PM"

def clock (d : Date) : String := two d.hour ++ ":" ++ two d.minute ++ ":" ++ two d.second

def slashed (d : Date) : String :=
  two d.month ++ "/" ++ two d.day ++ "/" ++ two (d.year % 100).toNat

/-- The week of the year when weeks begin on a weekday. -/
def weekFrom (d : Date) (first : Nat) : Nat := (d.yearday + 7 - (d.weekday + 7 - first) % 7) / 7

/-- One conversion of a date; `zone` is the name of the time zone. -/
def field (d : Date) (zone : String) (c : Char) : Option String :=
  match c with
  | 'a' => some (short (dayNames.getD d.weekday ""))
  | 'A' => some (dayNames.getD d.weekday "")
  | 'b' | 'h' => some (short (monthNames.getD (d.month - 1) ""))
  | 'B' => some (monthNames.getD (d.month - 1) "")
  | 'c' =>
    some (short (dayNames.getD d.weekday "") ++ " " ++ short (monthNames.getD (d.month - 1) "")
      ++ " " ++ spaced d.day ++ " " ++ clock d ++ " " ++ toString d.year)
  | 'C' => some (two (d.year / 100).toNat)
  | 'd' => some (two d.day)
  | 'D' | 'x' => some (slashed d)
  | 'e' => some (spaced d.day)
  | 'F' => some (toString d.year ++ "-" ++ two d.month ++ "-" ++ two d.day)
  | 'g' => some (two ((isoWeek d).1 % 100).toNat)
  | 'G' => some (toString (isoWeek d).1)
  | 'H' => some (two d.hour)
  | 'I' => some (two (hour12 d))
  | 'j' => some (Digits.padded 3 (d.yearday + 1))
  | 'm' => some (two d.month)
  | 'M' => some (two d.minute)
  | 'n' => some "\n"
  | 'p' => some (half d)
  | 'r' => some (two (hour12 d) ++ ":" ++ two d.minute ++ ":" ++ two d.second ++ " " ++ half d)
  | 'R' => some (two d.hour ++ ":" ++ two d.minute)
  | 's' =>
    some (toString (seconds d.year ((d.month : Int) - 1) d.day d.hour d.minute d.second))
  | 'S' => some (two d.second)
  | 't' => some "\t"
  | 'T' | 'X' => some (clock d)
  | 'u' => some (toString (if d.weekday == 0 then 7 else d.weekday))
  | 'U' => some (two (weekFrom d 0))
  | 'V' => some (two (isoWeek d).2)
  | 'w' => some (toString d.weekday)
  | 'W' => some (two (weekFrom d 1))
  | 'y' => some (two (d.year % 100).toNat)
  | 'Y' => some (toString d.year)
  | 'z' => some "+0000"
  | 'Z' => some zone
  | '%' => some "%"
  | _ => none

end Date

end Enclosure
