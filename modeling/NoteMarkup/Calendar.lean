import NoteMarkup.Moment

/-!
Dates and times of day: which exist, and how they are written.
-/

namespace NoteMarkup.Calendar

/-- Whether a year has a leap day. -/
def isLeap (year : Nat) : Bool := year % 4 == 0 && (year % 100 != 0 || year % 400 == 0)

/-- The number of days of a month. -/
def daysIn (year month : Nat) : Nat :=
  if month == 2 then if isLeap year then 29 else 28
  else if month == 4 || month == 6 || month == 9 || month == 11 then 30
  else 31

/-- Why there is no such date, if there is none. -/
def dateProblem? (year month day : Nat) : Option String :=
  if year < 1 || year > 9999 then some ("year " ++ toString year ++ " is out of range")
  else if month < 1 || month > 12 then some "month must be in 1..12"
  else if day < 1 || day > daysIn year month then some "day is out of range for month"
  else none

/-- Why there is no such time of day, if there is none. -/
def timeProblem? (hour minute second : Nat) : Option String :=
  if hour > 23 then some "hour must be in 0..23"
  else if minute > 59 then some "minute must be in 0..59"
  else if second > 59 then some "second must be in 0..59"
  else none

/-- A number with zeros before it up to a width. -/
def padded (width n : Nat) : String :=
  let digits := Nat.toDigits 10 n
  String.ofList (List.replicate (width - digits.length) '0' ++ digits)

/-- A date. -/
def dateText (year month day : Nat) : String :=
  padded 4 year ++ "-" ++ padded 2 month ++ "-" ++ padded 2 day

/-- A time of day. Millionths of a second are left out if there are none. -/
def timeText (hour minute second micros : Nat) : String :=
  padded 2 hour ++ ":" ++ padded 2 minute ++ ":" ++ padded 2 second ++
    (if micros == 0 then "" else "." ++ padded 6 micros)

/-- A distance from universal time in minutes. -/
def offsetText (minutes : Int) : String :=
  (if minutes < 0 then "-" else "+") ++ padded 2 (minutes.natAbs / 60) ++ ":" ++
    padded 2 (minutes.natAbs % 60)

/-- Why there is no such distance from universal time, if there is none: it is less than a day. -/
def offsetProblem? (minutes : Int) : Option String :=
  if minutes.natAbs < 24 * 60 then none
  else
    some ("offset must be a timedelta strictly between -timedelta(hours=24) and "
      ++ "timedelta(hours=24), not " ++ Moment.distanceCall (minutes * 60) ++ ".")

end NoteMarkup.Calendar
