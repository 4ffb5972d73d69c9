import NoteMarkup.Calendar
import NoteMarkup.Decimal.Text
import NoteMarkup.LoadFault
import NoteMarkup.Text.Hex
import NoteMarkup.Text.Lines
import NoteMarkup.Text.Number
import NoteMarkup.Value

/-!
Scalars of a TOML text: strings of four forms, dates and times, and numbers.
-/

namespace NoteMarkup.Toml

/-- What is wrong with a text. -/
def malformed {α : Type} (cause : String) : Except LoadFault α := throw (.malformed cause)

/-- A control character; tabs and line feeds count as well. -/
def isControl (c : Char) : Bool := c.toNat < 32 || c.toNat == 127

/-- A character that stands for itself on a line. -/
def isPlain (c : Char) : Bool := c == '\t' || !isControl c

/-- A blank inside a line. -/
def isBlank (c : Char) : Bool := c == ' ' || c == '\t'

/-- A blank or a line feed. -/
def isBlankOrEnd (c : Char) : Bool := isBlank c || c == '\n'

/-- The character after a backslash, but for an escape by number. -/
def escaped? (c : Char) : Option Char :=
  match c with
  | '"' | '\\' => some c
  | 'b' => some '\x08'
  | 't' => some '\t'
  | 'n' => some '\n'
  | 'f' => some '\x0c'
  | 'r' => some '\r'
  | _ => none

/-- The character with the number that `count` digits write, and what follows them. -/
def numbered? (count : Nat) (s : List Char) : Option (Char × List Char) :=
  let digits := s.take count
  if digits.length != count then none
  else (Text.hexNumber? digits).bind fun n =>
    if n < 0xd800 || (0xe000 ≤ n && n < 0x110000) then some (Char.ofNat n, s.drop count) else none

/-- An escape after its backslash, and what follows it. -/
def escape? (s : List Char) : Option (Char × List Char) :=
  match s with
  | 'u' :: r => numbered? 4 r
  | 'U' :: r => numbered? 8 r
  | c :: r => (escaped? c).map fun e => (e, r)
  | [] => none

/-- What follows a backslash at the end of a line: blanks and line ends do not count up to the next
character. -/
def skipLineEnd? (s : List Char) : Option (List Char) :=
  match s.dropWhile isBlank with
  | [] => if s.isEmpty then none else some []
  | '\n' :: r => some (r.dropWhile isBlankOrEnd)
  | _ => none

/-- A string on one line after its quotation mark, and what follows it. -/
def basicString : (fuel : Nat) → List Char → Except LoadFault (List Char × List Char)
  | 0, _ => malformed "a string does not end"
  | _, [] => malformed "a string does not end"
  | fuel + 1, c :: r =>
    if c == '"' then .ok ([], r)
    else if c == '\\' then
      match escape? r with
      | some (e, r) => (basicString fuel r).map fun p => (e :: p.1, p.2)
      | none => malformed "an unknown escape"
    else if isPlain c then (basicString fuel r).map fun p => (c :: p.1, p.2)
    else malformed "a control character in a string"

/-- A string on many lines after its quotation marks, and what follows its end. -/
def basicText : (fuel : Nat) → List Char → Except LoadFault (List Char × List Char)
  | 0, _ => malformed "a string does not end"
  | _, [] => malformed "a string does not end"
  | fuel + 1, c :: r =>
    if c == '"' then
      match r with
      | '"' :: '"' :: r => .ok ([], r)
      | r => (basicText fuel r).map fun p => ('"' :: p.1, p.2)
    else if c == '\\' then
      match skipLineEnd? r, escape? r with
      | some r, _ => basicText fuel r
      | none, some (e, r) => (basicText fuel r).map fun p => (e :: p.1, p.2)
      | none, none => malformed "an unknown escape"
    else if c == '\n' || isPlain c then (basicText fuel r).map fun p => (c :: p.1, p.2)
    else malformed "a control character in a string"

/-- A literal string on one line after its apostrophe, and what follows it. -/
def literalString (s : List Char) : Except LoadFault (List Char × List Char) :=
  match Text.cutAt '\'' s with
  | none => malformed "a string does not end"
  | some (text, r) =>
    if text.all isPlain then .ok (text, r) else malformed "a control character in a string"

/-- A literal string on many lines after its apostrophes, and what follows its end. -/
def literalText : List Char → Except LoadFault (List Char × List Char)
  | [] => malformed "a string does not end"
  | '\'' :: '\'' :: '\'' :: r => .ok ([], r)
  | c :: r =>
    if c == '\n' || isPlain c then (literalText r).map fun p => (c :: p.1, p.2)
    else malformed "a control character in a string"

/-- One or two marks before the three that end a string belong to it. -/
def withExtraMarks (mark : Char) (p : List Char × List Char) : List Char × List Char :=
  let extra := (p.2.takeWhile (· == mark)).take 2
  (p.1 ++ extra, p.2.drop extra.length)

/-- A text without a line feed at its start. -/
def dropLineFeed (s : List Char) : List Char :=
  match s with
  | '\n' :: r => r
  | r => r

/-- A string on one line, and what follows it. -/
def lineString? (s : List Char) : Option (Except LoadFault (String × List Char)) :=
  let finish (p : List Char × List Char) := (String.ofList p.1, p.2)
  match s with
  | '"' :: r => some ((basicString (r.length + 1) r).map finish)
  | '\'' :: r => some ((literalString r).map finish)
  | _ => none

/-- A string of any form, and what follows it. -/
def string? (s : List Char) : Option (Except LoadFault (String × List Char)) :=
  let finish (mark : Char) (p : List Char × List Char) :=
    let p := withExtraMarks mark p
    (String.ofList p.1, p.2)
  match s with
  | '"' :: '"' :: '"' :: r =>
    let r := dropLineFeed r
    some ((basicText (r.length + 1) r).map (finish '"'))
  | '\'' :: '\'' :: '\'' :: r => some ((literalText (dropLineFeed r)).map (finish '\''))
  | s => lineString? s

/-- Two digits that write a number from `low` to `high`. -/
def twoDigits? (low high : Nat) (s : List Char) : Option (Nat × List Char) :=
  match s with
  | a :: b :: r =>
    if a.isDigit && b.isDigit then
      let n := Decimal.digitsValue [a, b]
      if low ≤ n && n ≤ high then some (n, r) else none
    else none
  | _ => none

/-- What follows a character. -/
def after? (c : Char) (s : List Char) : Option (List Char) :=
  match s with
  | d :: r => if d == c then some r else none
  | [] => none

/-- A time of day: its hour, minute and second and millionths of a second. -/
def clock? (s : List Char) : Option ((Nat × Nat × Nat × Nat) × List Char) := do
  let (hour, r) ← twoDigits? 0 23 s
  let (minute, r) ← twoDigits? 0 59 (← after? ':' r)
  let (second, r) ← twoDigits? 0 59 (← after? ':' r)
  match r with
  | '.' :: t =>
    let digits := t.takeWhile Char.isDigit
    if digits.isEmpty then return ((hour, minute, second, 0), r)
    else return ((hour, minute, second, Decimal.micros digits), t.dropWhile Char.isDigit)
  | _ => return ((hour, minute, second, 0), r)

/-- A time of day as a text. -/
def clockText (t : Nat × Nat × Nat × Nat) : String := Calendar.timeText t.1 t.2.1 t.2.2.1 t.2.2.2

/-- The distance from universal time in minutes, if one is given, and what follows it. -/
def zone (s : List Char) : Option Int × List Char :=
  match s with
  | c :: r =>
    if c == 'Z' || c == 'z' then (some 0, r)
    else if c == '+' || c == '-' then
      let minutes := do
        let (hours, r) ← twoDigits? 0 23 r
        let (minutes, r) ← twoDigits? 0 59 (← after? ':' r)
        return ((hours * 60 + minutes : Nat), r)
      match minutes with
      | some (n, r) => (some (if c == '-' then -(n : Int) else n), r)
      | none => (none, s)
    else (none, s)
  | [] => (none, s)

/-- A year, a month and a day; the month may have fewer days. -/
def day? (s : List Char) : Option ((Nat × Nat × Nat) × List Char) := do
  let year := s.take 4
  if year.length != 4 || !year.all Char.isDigit then none
  else
    let (month, r) ← twoDigits? 1 12 (← after? '-' (s.drop 4))
    let (day, r) ← twoDigits? 1 31 (← after? '-' r)
    return ((Decimal.digitsValue year, month, day), r)

/-- A date, with or without a time of day, and what follows it. -/
def date? (s : List Char) : Option (Except LoadFault (Value × List Char)) := do
  let ((year, month, day), r) ← day? s
  let date := Calendar.dateText year month day
  let value := match r with
    | c :: t =>
      match if c == 'T' || c == 't' || c == ' ' then clock? t else none with
      | some (time, t) =>
        let (offset, t) := zone t
        let place := (offset.map Calendar.offsetText).getD ""
        (Value.dateTime (date ++ " " ++ clockText time ++ place), t)
      | none => (Value.date date, r)
    | [] => (Value.date date, r)
  return match Calendar.dateProblem? year month day with
    | some cause => malformed cause
    | none => .ok value

/-- The digits of a number at the start of a text: an underscore stands between two digits. -/
def digitRun (isDigit : Char → Bool) : List Char → List Char
  | [] => []
  | ['_'] => []
  | '_' :: d :: r => if isDigit d then '_' :: digitRun isDigit (d :: r) else []
  | c :: r => if isDigit c then c :: digitRun isDigit r else []

/-- The digits of a number, which start with one. -/
def digits (isDigit : Char → Bool) (s : List Char) : List Char :=
  if s.head? == some '_' then [] else digitRun isDigit s

/-- A number without its underscores. -/
def plainDigits (s : List Char) : List Char := s.filter (· != '_')

/-- A whole number in a base that its second character names. -/
def basedNumber? (s : List Char) : Option (Value × List Char) :=
  let read (base : Nat) (isDigit : Char → Bool) (r : List Char) : Option (Value × List Char) :=
    let run := digits isDigit r
    (Text.naturalInBase? base (plainDigits run)).map fun n => (.int n, r.drop run.length)
  match s with
  | '0' :: 'x' :: r => read 16 (fun c => (Text.hexValue? c).isSome) r
  | '0' :: 'b' :: r => read 2 (fun c => c == '0' || c == '1') r
  | '0' :: 'o' :: r => read 8 (fun c => '0' ≤ c && c ≤ '7') r
  | _ => none

/-- The whole part of a number: no zero stands before other digits. -/
def wholeOf (s : List Char) : List Char :=
  match s with
  | '0' :: _ => ['0']
  | r => digits Char.isDigit r

/-- The fraction of a number, with its point. -/
def fractionOf (s : List Char) : List Char :=
  match s with
  | '.' :: r =>
    let run := digits Char.isDigit r
    if run.isEmpty then [] else '.' :: run
  | _ => []

/-- The exponent of a number, with its letter. -/
def exponentOf (s : List Char) : List Char :=
  match s with
  | e :: r =>
    let sign := (r.takeWhile fun c => c == '+' || c == '-').take 1
    let run := digits Char.isDigit (r.drop sign.length)
    if (e == 'e' || e == 'E') && !run.isEmpty then e :: sign ++ run else []
  | [] => []

/-- A decimal number, and what follows it. -/
def decimalNumber (s : List Char) : Except LoadFault (Value × List Char) := do
  let sign := (s.takeWhile fun c => c == '+' || c == '-').take 1
  let r := s.drop sign.length
  let whole := wholeOf r
  if whole.isEmpty then malformed "a value is expected"
  else
    let r := r.drop whole.length
    let fraction := fractionOf r
    let r := r.drop fraction.length
    let exponent := exponentOf r
    let rest := r.drop exponent.length
    if fraction.isEmpty && exponent.isEmpty then
      let whole := plainDigits whole
      require (Text.lengthProblem? whole.length)
      let n : Int := Decimal.digitsValue whole
      return (.int (if sign == ['-'] then -n else n), rest)
    else
      match Decimal.readFloat? (plainDigits (sign ++ whole ++ fraction ++ exponent)) with
      | some x => return (.float (Decimal.floatText x), rest)
      | none => malformed "a value is expected"

/-- The words that are values. -/
def words : List (String × Value) :=
  [("true", .bool true), ("false", .bool false), ("inf", .float "inf"), ("+inf", .float "inf"),
   ("-inf", .float "-inf"), ("nan", .float "nan"), ("+nan", .float "nan"), ("-nan", .float "nan")]

/-- The word that a text starts with, and what follows it. -/
def word? (s : List Char) : Option (Value × List Char) :=
  words.findSome? fun w => (Text.afterFront? w.1.toList s).map fun r => (w.2, r)

/-- A time of day that stands alone, and what follows it. -/
def time? (s : List Char) : Option (Value × List Char) :=
  (clock? s).map fun p => (.time (clockText p.1), p.2)

/-- A scalar, and what follows it. -/
def scalar (s : List Char) : Except LoadFault (Value × List Char) :=
  match string? s, date? s with
  | some r, _ => r.map fun p => (.str p.1, p.2)
  | none, some r => r
  | none, none =>
    match (word? s).orElse fun _ => (time? s).orElse fun _ => basedNumber? s with
    | some p => .ok p
    | none => decimalNumber s

end NoteMarkup.Toml
