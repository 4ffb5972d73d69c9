import NoteMarkup.Calendar
import NoteMarkup.Decimal.Text
import NoteMarkup.Text.Base64
import NoteMarkup.Text.Case
import NoteMarkup.Text.Lines
import NoteMarkup.Text.Number
import NoteMarkup.Value
import NoteMarkup.Yaml.Implicit

/-!
The values of YAML scalars: what a tag makes of a text.
-/

namespace NoteMarkup.Yaml

/-- What is said of a text that is no integer in a base. At most 200 characters of it are shown. -/
def noInteger (base : Nat) (s : List Char) : String :=
  "invalid literal for int() with base " ++ toString base ++ ": "
    ++ String.ofList ((Value.quoted (String.ofList s)).toList.take 200)

/-- The integer in a base that a text writes. -/
def integerOf (base : Nat) (s : List Char) : Except LoadFault Int := do
  match Text.integerInBase? base s with
  | some n =>
    if base == 10 then require (Text.lengthProblem? (s.countP Text.isDigit))
    return n
  | none => noValue (noInteger base s)

/-- Places of base sixty, the last one first. -/
def sexagesimal (places : List Int) : Int := places.reverse.foldl (fun n d => n * 60 + d) 0

/-- An integer: binary, octal, hexadecimal, sexagesimal or decimal. -/
def integer (text : String) : Except LoadFault Int := do
  let s := text.toList.filter (· != '_')
  let sign : Int := if s.head? == some '-' then -1 else 1
  let n ← match dropSign s with
    | [] => throw (.scalar .empty)
    | ['0'] => pure 0
    | '0' :: 'b' :: r => integerOf 2 r
    | '0' :: 'x' :: r => integerOf 16 r
    | '0' :: r => integerOf 8 ('0' :: r)
    | r =>
      if r.contains ':' then do
        let places ← (Text.splitAtChar ':' r).mapM (integerOf 10)
        pure (sexagesimal places.reverse)
      else integerOf 10 r
  return sign * n

/-- The float that a text in lower case writes. -/
def floatOf (s : List Char) : Except LoadFault Float :=
  let t := (Text.trimNumber s).map Text.plainDigit
  let r := dropSign t
  let signed (x : Float) : Float := if t.head? == some '-' then -x else x
  if r == "inf".toList || r == "infinity".toList then .ok (signed (1.0 / 0.0))
  else if r == "nan".toList then .ok (0.0 / 0.0)
  else
    match Decimal.readFloat? t with
    | some x => .ok x
    | none => noValue ("could not convert string to float: " ++ Value.quoted (String.ofList s))

/-- A float: decimal, sexagesimal, infinite or no number. -/
def float (text : String) : Except LoadFault Float := do
  let s := Text.lower (text.toList.filter (· != '_'))
  if s.isEmpty then throw (.scalar .empty)
  let negative := s.head? == some '-'
  let signed (x : Float) : Float := if negative then -x else x
  let r := dropSign s
  if r == ".inf".toList then return signed (1.0 / 0.0)
  else if r == ".nan".toList then return 0.0 / 0.0
  else if r.contains ':' then
    let places ← (Text.splitAtChar ':' r).mapM floatOf
    let sum := places.reverse.foldl (fun (acc : Float × Nat) d =>
      (acc.1 + d * Float.ofNat acc.2, acc.2 * 60)) (0.0, 1)
    return signed sum.1
  else return signed (← floatOf r)

/-- A date or a time. -/
def moment (text : String) : Except LoadFault Value := do
  match stamp? (dropLastBreak text.toList) with
  | none => throw (.scalar (.notDate text))
  | some t =>
    let number := Decimal.digitsValue
    let (year, month, day) := (number t.year, number t.month, number t.day)
    let date := Calendar.dateText year month day
    match t.time with
    | none =>
      require (Calendar.dateProblem? year month day)
      return .date date
    | some (h, m, s, fraction) =>
      let offset := t.zone.map fun z =>
        let minutes : Int := number z.2.1 * 60 + number z.2.2
        if z.1 then -minutes else minutes
      require (offset.bind Calendar.offsetProblem?)
      require (Calendar.dateProblem? year month day)
      require (Calendar.timeProblem? (number h) (number m) (number s))
      return .dateTime (date ++ " " ++ Calendar.timeText (number h) (number m) (number s)
        (Decimal.micros fraction) ++ (offset.map Calendar.offsetText).getD "")

/-- The truth value of a word. -/
def truth (text : String) : Except LoadFault Value :=
  let word := String.ofList (Text.lower text.toList)
  match truthWords.lookup word with
  | some b => .ok (.bool b)
  | none => throw (.scalar (.notTruth word))

/-- A node that its tag does not fit. -/
def unfit : LoadFault := .malformed "could not construct the node"

/-- The value of a scalar. -/
def scalarValue (tag text : String) : Except LoadFault Value := do
  if tag == standardTag "str" then return .str text
  else if tag == standardTag "null" then return .null
  else if tag == standardTag "bool" then truth text
  else if tag == standardTag "int" then return .int (← integer text)
  else if tag == standardTag "float" then return .float (Decimal.floatText (← float text))
  else if tag == standardTag "timestamp" then moment text
  else if tag == standardTag "binary" then
    match if text.toList.all fun c => c.toNat < 128 then Text.base64? text.toList else none with
    | some octets => return .bytes octets
    | none => throw unfit
  else throw unfit

end NoteMarkup.Yaml
