import NoteMarkup.Decimal.Text
import NoteMarkup.LoadFault
import NoteMarkup.Text.Hex
import NoteMarkup.Text.Lines
import NoteMarkup.Text.Number
import NoteMarkup.Text.Surrogate
import NoteMarkup.Value

/-!
Values from JSON texts. Besides the values of the format, `NaN`, `Infinity` and `-Infinity` are
read. The last entry for a key of an object wins.
-/

namespace NoteMarkup.Json

/-- What is wrong with a text. -/
def malformed {α : Type} (cause : String) : Except LoadFault α := throw (.malformed cause)

/-- A blank between tokens. -/
def isBlank (c : Char) : Bool := c == ' ' || c == '\t' || c == '\n' || c == '\r'

/-- A text without the blanks at its start. -/
def skipBlanks (s : List Char) : List Char := s.dropWhile isBlank

/-- The character after a backslash, but for an escape by number. -/
def escaped? (c : Char) : Option Char :=
  match c with
  | '"' | '\\' | '/' => some c
  | 'b' => some '\x08'
  | 'f' => some '\x0c'
  | 'n' => some '\n'
  | 'r' => some '\r'
  | 't' => some '\t'
  | _ => none

/-- The units of a string up to its quotation mark, and what follows it. A unit is the number of a
character, or half of a surrogate pair. -/
def units : List Char → Except LoadFault (List Nat × List Char)
  | [] => malformed "a string does not end"
  | '"' :: r => .ok ([], r)
  | '\\' :: 'u' :: a :: b :: c :: d :: r =>
    match Text.hexNumber? [a, b, c, d] with
    | some n => (units r).map fun p => (n :: p.1, p.2)
    | none => malformed "an escape by number needs four digits"
  | '\\' :: c :: r =>
    match escaped? c with
    | some e => (units r).map fun p => (e.toNat :: p.1, p.2)
    | none => malformed "an unknown escape"
  | c :: r =>
    if c.toNat < 32 then malformed "a control character in a string"
    else (units r).map fun p => (c.toNat :: p.1, p.2)

/-- The string after its first quotation mark, and what follows it. -/
def string (s : List Char) : Except LoadFault (String × List Char) :=
  (units s).map fun p => (String.ofList (Text.joinHalves p.1), p.2)

/-- The fraction of a number, with its point. -/
def fractionOf (s : List Char) : List Char :=
  match s with
  | '.' :: r =>
    let digits := r.takeWhile Char.isDigit
    if digits.isEmpty then [] else '.' :: digits
  | _ => []

/-- The exponent of a number, with its letter. -/
def exponentOf (s : List Char) : List Char :=
  match s with
  | e :: r =>
    let sign := r.takeWhile (fun c => c == '+' || c == '-') |>.take 1
    let digits := (r.drop sign.length).takeWhile Char.isDigit
    if (e == 'e' || e == 'E') && !digits.isEmpty then e :: sign ++ digits else []
  | [] => []

/-- The whole part of a number without sign: no zero stands before other digits. -/
def wholeOf (s : List Char) : List Char :=
  match s with
  | '0' :: _ => ['0']
  | r => r.takeWhile Char.isDigit

/-- A number and what follows it. -/
def number (s : List Char) : Except LoadFault (Value × List Char) := do
  let sign := if s.head? == some '-' then ['-'] else []
  let r := s.drop sign.length
  let whole := wholeOf r
  if whole.isEmpty then malformed "a value is expected"
  else
    let r := r.drop whole.length
    let fraction := fractionOf r
    let r := r.drop fraction.length
    let exponent := exponentOf r
    let rest := r.drop exponent.length
    if fraction.isEmpty && exponent.isEmpty then
      require (Text.lengthProblem? whole.length)
      let n : Int := Decimal.digitsValue whole
      return (.int (if sign.isEmpty then n else -n), rest)
    else
      match Decimal.readFloat? (sign ++ whole ++ fraction ++ exponent) with
      | some x => return (.float (Decimal.floatText x), rest)
      | none => malformed "a value is expected"

/-- The words that are values. -/
def words : List (String × Value) :=
  [("null", .null), ("true", .bool true), ("false", .bool false), ("NaN", .float "nan"),
   ("Infinity", .float "inf"), ("-Infinity", .float "-inf")]

/-- The word that a text starts with, and what follows it. -/
def word? (s : List Char) : Option (Value × List Char) :=
  words.findSome? fun w => (Text.afterFront? w.1.toList s).map fun r => (w.2, r)

mutual

/-- A value and what follows it. `fuel` bounds the nesting and the number of items. -/
def value : (fuel : Nat) → List Char → Except LoadFault (Value × List Char)
  | 0, _ => malformed "a value is expected"
  | fuel + 1, s =>
    match s with
    | '"' :: r => (string r).map fun p => (.str p.1, p.2)
    | '[' :: r =>
      match skipBlanks r with
      | ']' :: r => .ok (.list [], r)
      | r => (items fuel r).map fun p => (.list p.1, p.2)
    | '\x7b' :: r =>
      match skipBlanks r with
      | '\x7d' :: r => .ok (.map [], r)
      | r => (entries fuel r).map fun p => (.map (Record.ofList p.1), p.2)
    | s =>
      match word? s with
      | some p => .ok p
      | none => number s

/-- The items of a list from the next one on, and what follows the list. -/
def items : (fuel : Nat) → List Char → Except LoadFault (List Value × List Char)
  | 0, _ => malformed "a value is expected"
  | fuel + 1, s => do
    let (v, r) ← value fuel s
    match skipBlanks r with
    | ']' :: r => return ([v], r)
    | ',' :: r =>
      let (vs, r) ← items fuel (skipBlanks r)
      return (v :: vs, r)
    | _ => malformed "a comma is expected"

/-- The entries of an object from the next one on, and what follows the object. -/
def entries : (fuel : Nat) → List Char → Except LoadFault (List (Value × Value) × List Char)
  | 0, _ => malformed "a key is expected"
  | fuel + 1, s => do
    match s with
    | '"' :: r =>
      let (key, r) ← string r
      match skipBlanks r with
      | ':' :: r =>
        let (v, r) ← value fuel (skipBlanks r)
        match skipBlanks r with
        | '\x7d' :: r => return ([(.str key, v)], r)
        | ',' :: r =>
          let (es, r) ← entries fuel (skipBlanks r)
          return ((.str key, v) :: es, r)
        | _ => malformed "a comma is expected"
      | _ => malformed "a colon is expected"
    | _ => malformed "a key is expected"

end

/-- The value that a text writes. -/
def load (s : List Char) : Except LoadFault Value := do
  let (v, r) ← value (s.length + 1) (skipBlanks s)
  if (skipBlanks r).isEmpty then return v else malformed "more than one value"

end NoteMarkup.Json
