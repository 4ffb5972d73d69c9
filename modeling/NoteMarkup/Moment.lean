/-!
Dates and times: the calls that make them, and the points of time that they are. The written forms
are those of the calendar: a date, a time of day, or both with a distance from universal time.
-/

namespace NoteMarkup.Moment

/-- The digits of a number that is being read, and the numbers after it. -/
def numbersFrom (number : Option Nat) : List Char → List Nat
  | [] => number.toList
  | c :: cs =>
    if c.isDigit then numbersFrom (some (number.getD 0 * 10 + (c.toNat - 48))) cs
    else number.toList ++ numbersFrom none cs

/-- The numbers that the runs of digits in a text write. -/
def numbers (s : List Char) : List Nat := numbersFrom none s

/-- A call with arguments. -/
def call (name : String) (arguments : List String) : String :=
  "datetime." ++ name ++ "(" ++ ", ".intercalate arguments ++ ")"

/-- The arguments for the parts of a time of day; seconds are left out if they are zero. -/
def clockArguments (parts : List Nat) : List String :=
  let parts := if parts.length == 3 && parts.getLast? == some 0 then parts.dropLast else parts
  parts.map toString

/-- A distance from universal time in seconds, as days and the seconds of a day. -/
def distanceCall (seconds : Int) : String :=
  let day := 24 * 60 * 60
  let days := seconds.fdiv day
  let rest := seconds.fmod day
  call "timedelta"
    ((if days == 0 then [] else ["days=" ++ toString days]) ++
      (if rest == 0 then [] else ["seconds=" ++ toString rest]))

/-- The argument for a distance from universal time, which a sign starts. -/
def zoneArguments (zone : List Char) : List String :=
  match numbers zone with
  | hours :: minutes :: _ =>
    let seconds : Int := (hours * 60 + minutes) * 60
    if seconds == 0 then ["tzinfo=datetime.timezone.utc"]
    else
      let signed := if zone.head? == some '-' then -seconds else seconds
      ["tzinfo=" ++ call "timezone" [distanceCall signed]]
  | _ => []

/-- The call for a date. -/
def dateCall (text : String) : String := call "date" ((numbers text.toList).map toString)

/-- The call for a time of day. -/
def timeCall (text : String) : String := call "time" (clockArguments (numbers text.toList))

/-- The parts of a date with a time of day: the numbers of the date, those of the time, and the
distance from universal time, which a sign starts. -/
def parts (text : String) : List Nat × List Nat × List Char :=
  let rest := text.toList.drop 10
  let isSign (c : Char) : Bool := c == '+' || c == '-'
  (numbers (text.toList.take 10), numbers (rest.takeWhile fun c => !isSign c),
    rest.dropWhile fun c => !isSign c)

/-- The call for a date with a time of day. -/
def dateTimeCall (text : String) : String :=
  let (date, clock, zone) := parts text
  call "datetime" (date.map toString ++ clockArguments clock ++ zoneArguments zone)

/-! ### Points of time -/

/-- The number of days before a date. The year starts in March, so that a leap day ends it. -/
def dayNumber (year month day : Nat) : Nat :=
  let y := if month ≤ 2 then year - 1 else year
  365 * y + y / 4 - y / 100 + y / 400 + ((month + 9) % 12 * 306 + 5) / 10 + day

/-- The millionths of a second before a date with a time of day, if the distance from universal time
is known. -/
def instant? (text : String) : Option Int :=
  match parts text with
  | (year :: month :: day :: _, hour :: minute :: second :: fraction, zone) =>
    match numbers zone with
    | hours :: minutes :: _ =>
      let offset : Int := (hours * 60 + minutes) * 60
      let seconds : Int := ((dayNumber year month day * 24 + hour) * 60 + minute) * 60 + second
      let universal := if zone.head? == some '-' then seconds + offset else seconds - offset
      some (universal * 1000000 + fraction.headD 0)
    | _ => none
  | _ => none

/-- Whether two dates with times of day are the same point of time. -/
def isSame (s t : String) : Bool :=
  s == t || ((instant? s).isSome && instant? s == instant? t)

end NoteMarkup.Moment
