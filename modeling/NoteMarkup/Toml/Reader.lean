import NoteMarkup.Toml.Scalar
import NoteMarkup.Toml.Syntax

/-!
Statements from a TOML text. A statement ends with its line; blank lines and comments stand between
statements and between the items of an array.
-/

namespace NoteMarkup.Toml

/-- A text without the blanks at its start. -/
def skipBlanks (s : List Char) : List Char := s.dropWhile isBlank

/-- A letter, a digit or a sign of a key without quotes. -/
def isBare (c : Char) : Bool := c.isAlphanum || c == '-' || c == '_'

/-- What follows a comment, if one starts here. -/
def skipComment (s : List Char) : Except LoadFault (List Char) :=
  match s with
  | '#' :: r =>
    if (r.takeWhile (· != '\n')).all isPlain then .ok (r.dropWhile (· != '\n'))
    else malformed "a control character in a comment"
  | s => .ok s

/-- What follows blanks, line ends and comments. -/
def skipLines : (fuel : Nat) → List Char → Except LoadFault (List Char)
  | 0, s => .ok s
  | fuel + 1, s => do
    match s.dropWhile isBlankOrEnd with
    | '#' :: r => skipLines fuel (← skipComment ('#' :: r))
    | r => return r

/-- What follows blanks, line ends and comments. -/
def skipSpace (s : List Char) : Except LoadFault (List Char) := skipLines s.length s

/-- One name of a key, and what follows it. -/
def keyPart (s : List Char) : Except LoadFault (String × List Char) :=
  let bare := s.takeWhile isBare
  if !bare.isEmpty then .ok (String.ofList bare, s.drop bare.length)
  else
    match lineString? s with
    | some r => r
    | none => malformed "a key is expected"

/-- The names of a key after its first one, and what follows the key. -/
def keyRest : (fuel : Nat) → List Char → Except LoadFault (Key × List Char)
  | 0, s => .ok ([], s)
  | fuel + 1, s => do
    match s with
    | '.' :: r =>
      let (part, r) ← keyPart (skipBlanks r)
      let (parts, r) ← keyRest fuel (skipBlanks r)
      return (part :: parts, r)
    | s => return ([], s)

/-- A key, and what follows it and the blanks after it. -/
def key (s : List Char) : Except LoadFault (Key × List Char) := do
  let (part, r) ← keyPart s
  let (parts, r) ← keyRest r.length (skipBlanks r)
  return (part :: parts, r)

mutual

/-- A value, and what follows it. `fuel` bounds the nesting and the number of items. -/
def expression : (fuel : Nat) → List Char → Except LoadFault (Expression × List Char)
  | 0, _ => malformed "a value is expected"
  | fuel + 1, s => do
    match s with
    | '[' :: r =>
      match ← skipSpace r with
      | ']' :: r => return (.array [], r)
      | r =>
        let (items, r) ← arrayItems fuel r
        return (.array items, r)
    | '\x7b' :: r =>
      match skipBlanks r with
      | '\x7d' :: r => return (.inlineTable [], r)
      | r =>
        let (entries, r) ← tableEntries fuel r
        return (.inlineTable entries, r)
    | s =>
      let (v, r) ← scalar s
      return (.scalar v, r)

/-- The items of an array from the next one on, and what follows the array. A comma may stand after
the last item. -/
def arrayItems : (fuel : Nat) → List Char → Except LoadFault (List Expression × List Char)
  | 0, _ => malformed "a value is expected"
  | fuel + 1, s => do
    let (item, r) ← expression fuel s
    match ← skipSpace r with
    | ']' :: r => return ([item], r)
    | ',' :: r =>
      match ← skipSpace r with
      | ']' :: r => return ([item], r)
      | r =>
        let (items, r) ← arrayItems fuel r
        return (item :: items, r)
    | _ => malformed "an array does not end"

/-- The entries of an inline table from the next one on, and what follows the table. -/
def tableEntries : (fuel : Nat) → List Char → Except LoadFault (List (Key × Expression) × List Char)
  | 0, _ => malformed "a key is expected"
  | fuel + 1, s => do
    let (k, v, r) ← entry fuel s
    match skipBlanks r with
    | '\x7d' :: r => return ([(k, v)], r)
    | ',' :: r =>
      let (entries, r) ← tableEntries fuel (skipBlanks r)
      return ((k, v) :: entries, r)
    | _ => malformed "an inline table does not end"

/-- A key with its value, and what follows them. -/
def entry : (fuel : Nat) → List Char → Except LoadFault (Key × Expression × List Char)
  | 0, _ => malformed "a key is expected"
  | fuel + 1, s => do
    let (k, r) ← key s
    match r with
    | '=' :: r =>
      let (v, r) ← expression fuel (skipBlanks r)
      return (k, v, r)
    | _ => malformed "a value is expected after a key"

end

/-- The header of a table after its first bracket, and what follows it. -/
def header (s : List Char) : Except LoadFault (Statement × List Char) := do
  match s with
  | '[' :: r =>
    let (k, r) ← key (skipBlanks r)
    match r with
    | ']' :: ']' :: r => return (.nextTable k, r)
    | _ => malformed "a header does not end"
  | r =>
    let (k, r) ← key (skipBlanks r)
    match r with
    | ']' :: r => return (.table k, r)
    | _ => malformed "a header does not end"

/-- The statement that a line starts with, if it starts with one, and what follows it. -/
def statement (s : List Char) : Except LoadFault (Option Statement × List Char) := do
  match s with
  | [] => return (none, [])
  | '\n' :: _ => return (none, s)
  | '#' :: _ => return (none, s)
  | '[' :: r =>
    let (h, r) ← header r
    return (some h, r)
  | s =>
    let (k, v, r) ← entry (s.length + 1) s
    return (some (.entry k v), r)

/-- The statements of a text; `fuel` bounds the number of lines. -/
def statements : (fuel : Nat) → List Char → Except LoadFault (List Statement)
  | 0, _ => .ok []
  | fuel + 1, s => do
    let (first, r) ← statement (skipBlanks s)
    let rest ← match ← skipComment (skipBlanks r) with
      | [] => pure []
      | '\n' :: r => statements fuel r
      | _ => malformed "a line goes on after its statement"
    return first.toList ++ rest

/-- The text with a line feed for every pair of a carriage return and a line feed. -/
def dropReturns : List Char → List Char
  | [] => []
  | '\r' :: '\n' :: r => '\n' :: dropReturns r
  | c :: r => c :: dropReturns r

/-- The statements of a text. -/
def read (s : List Char) : Except LoadFault (List Statement) :=
  let s := dropReturns s
  statements (s.length + 1) s

end NoteMarkup.Toml
