import NoteMarkup.LoadFault

/-!
The types of plain scalars. The form of a plain scalar gives its type: truth values are words such
as `yes` and `off`, integers may be octal or sexagesimal, a date has four, two and two digits.
-/

namespace NoteMarkup.Yaml

/-- The address before the names of the standard types. -/
def standardAddress : String := "tag:yaml.org,2002:"

/-- The tag of a standard type. -/
def standardTag (name : String) : String := standardAddress ++ name

/-- A digit or an underscore. -/
def isDigitOrLine (c : Char) : Bool := c.isDigit || c == '_'

/-- A number without its sign. -/
def dropSign (s : List Char) : List Char :=
  match s with
  | '-' :: r => r
  | '+' :: r => r
  | r => r

/-- The words for truth values. -/
def truthWords : List (String × Bool) :=
  [("yes", true), ("no", false), ("true", true), ("false", false), ("on", true), ("off", false)]

/-- Whether a word is written in lower case, in upper case or with one capital. -/
def isWordForm (word : String) (s : List Char) : Bool :=
  let w := word.toList
  s == w || s == w.map Char.toUpper || s == (w.take 1).map Char.toUpper ++ w.drop 1

/-- Whether a plain scalar is a truth value. -/
def isTruth (s : List Char) : Bool := truthWords.any fun w => isWordForm w.1 s

/-- Whether a plain scalar is null. -/
def isNull (s : List Char) : Bool := s.isEmpty || s == ['~'] || isWordForm "null" s

/-- The rest after sexagesimal places `:5` or `:59`; `fuel` bounds their number. -/
def dropPlaces : (fuel : Nat) → List Char → List Char
  | 0, s => s
  | n + 1, ':' :: a :: r =>
    match r with
    | b :: r' =>
      if '0' ≤ a && a ≤ '5' && b.isDigit then dropPlaces n r'
      else if a.isDigit then dropPlaces n (b :: r')
      else ':' :: a :: b :: r'
    | [] => if a.isDigit then [] else [':', a]
  | _, s => s

/-- Whether a plain scalar is an integer. -/
def isInteger (s : List Char) : Bool :=
  match dropSign s with
  | [] => false
  | '0' :: 'b' :: r => !r.isEmpty && r.all fun c => c == '0' || c == '1' || c == '_'
  | '0' :: 'x' :: r => !r.isEmpty && r.all fun c =>
      c.isDigit || ('a' ≤ c && c ≤ 'f') || ('A' ≤ c && c ≤ 'F') || c == '_'
  | '0' :: r => r.all fun c => ('0' ≤ c && c ≤ '7') || c == '_'
  | c :: r =>
    let rest := r.dropWhile isDigitOrLine
    c.isDigit && (rest.isEmpty || (dropPlaces rest.length rest).isEmpty)

/-- Whether a text is empty or an exponent with a sign. -/
def isExponent (s : List Char) : Bool :=
  match s with
  | [] => true
  | e :: sign :: r =>
    (e == 'e' || e == 'E') && (sign == '-' || sign == '+') && !r.isEmpty && r.all Char.isDigit
  | _ => false

/-- Whether a plain scalar is a float. -/
def isFloat (s : List Char) : Bool :=
  let r := dropSign s
  let isInf (t : List Char) : Bool := isWordForm "inf" t
  let isNan (t : List Char) : Bool := t == "nan".toList || t == "NaN".toList || t == "NAN".toList
  match r with
  | '.' :: t =>
    isInf t || (r == s && (isNan t ||
      ((t.head?.map Char.isDigit).getD false && isExponent (t.dropWhile isDigitOrLine))))
  | c :: t =>
    let rest := t.dropWhile isDigitOrLine
    c.isDigit &&
      match rest with
      | '.' :: u => isExponent (u.dropWhile isDigitOrLine)
      | ':' :: _ =>
        match dropPlaces rest.length rest with
        | '.' :: u => u.all isDigitOrLine
        | _ => false
      | _ => false
  | [] => false

/-- The digits of a date or a time as written. -/
structure Stamp where
  year : List Char
  month : List Char
  day : List Char
  /-- Hour, minute, second and fraction. -/
  time : Option (List Char × List Char × List Char × List Char)
  /-- The distance from universal time: whether it is negative, hours and minutes. -/
  zone : Option (Bool × List Char × List Char)

/-- A run of digits of a length between two bounds, and the rest. -/
def digitRun? (least most : Nat) (s : List Char) : Option (List Char × List Char) :=
  let run := (s.take most).takeWhile Char.isDigit
  if run.length < least then none else some (run, s.drop run.length)

/-- What follows a character. -/
def after? (c : Char) (s : List Char) : Option (List Char) :=
  match s with
  | d :: r => if c == d then some r else none
  | [] => none

/-- A space or a tab. -/
def isGap (c : Char) : Bool := c == ' ' || c == '\t'

/-- The zone at the end of a time: nothing, `Z`, or a distance from universal time. -/
def zone? (s : List Char) : Option (Option (Bool × List Char × List Char)) :=
  match s.dropWhile isGap with
  | [] => if s.isEmpty then some none else none
  | ['Z'] => some (some (false, ['0'], []))
  | c :: r =>
    if c != '-' && c != '+' then none
    else do
      let (hours, r) ← digitRun? 1 2 r
      match r with
      | [] => return some (c == '-', hours, [])
      | r => do
        let (minutes, r) ← (after? ':' r).bind (digitRun? 2 2)
        if r.isEmpty then return some (c == '-', hours, minutes) else none

/-- A date, or a date with a time after `T` or gaps. -/
def stamp? (s : List Char) : Option Stamp := do
  let (year, r) ← digitRun? 4 4 s
  let (month, r) ← (after? '-' r).bind (digitRun? 1 2)
  let (day, r) ← (after? '-' r).bind (digitRun? 1 2)
  match r with
  | [] => return ⟨year, month, day, none, none⟩
  | c :: r => do
    let r ←
      if c == 'T' || c == 't' then some r
      else if isGap c then some (r.dropWhile isGap)
      else none
    let (hour, r) ← digitRun? 1 2 r
    let (minute, r) ← (after? ':' r).bind (digitRun? 2 2)
    let (second, r) ← (after? ':' r).bind (digitRun? 2 2)
    let (fraction, r) := match r with
      | '.' :: r => (r.takeWhile Char.isDigit, r.dropWhile Char.isDigit)
      | r => ([], r)
    let zone ← zone? r
    return ⟨year, month, day, some (hour, minute, second, fraction), zone⟩

/-- Whether a plain scalar is a date or a time. A date alone has two digits for month and day. -/
def isStamp (s : List Char) : Bool :=
  match stamp? s with
  | some t => t.time.isSome || (t.month.length == 2 && t.day.length == 2)
  | none => false

/-- A text without the line feed at its end, which forms do not look at; a line feed alone stays. -/
def dropLastBreak (s : List Char) : List Char :=
  if s.length > 1 && s.getLast? == some '\n' then s.dropLast else s

/-- The tag that the form of a scalar gives. -/
def implicitTag (text : List Char) : String :=
  let s := dropLastBreak text
  standardTag <|
    if isTruth s then "bool"
    else if isFloat s then "float"
    else if isInteger s then "int"
    else if s == ['<', '<'] then "merge"
    else if isNull s then "null"
    else if isStamp s then "timestamp"
    else if s == ['='] then "value"
    else "str"

end NoteMarkup.Yaml
