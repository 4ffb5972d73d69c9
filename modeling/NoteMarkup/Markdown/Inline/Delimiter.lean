import NoteMarkup.Markdown.Destination
import NoteMarkup.Markdown.Markup
import NoteMarkup.Reference
import NoteMarkup.TagText
import NoteMarkup.Text.Digit
import NoteMarkup.Text.Word

/-!
The marks that open and close inline items, each recognized on its own: spans between doubled marks,
code, addresses between angle brackets, breaks, and the marks of the dialect.
-/

namespace NoteMarkup.Markdown

open Text (isBlank isWord)

/-- The number of times a character stands at the start of a text. -/
def runLength (c : Char) (s : List Char) : Nat := (s.takeWhile (· == c)).length

/-- Whether a text starts with something else than a blank. -/
def startsVisible (s : List Char) : Bool :=
  match s with
  | c :: _ => !isBlank c
  | [] => false

/-- Whether a place is at the start of a text or after a blank. -/
def afterBlank (before : Option Char) : Bool := (before.map isBlank).getD true

/-- The number of characters before the two marks that close a span. They follow a character that is
not blank or an escaped mark, and not just one more mark follows them. `slashes` counts the
backslashes before this place, and `visible` tells whether the character before it may stand before
the marks. -/
def closingAt? (mark : Char) : (slashes : Nat) → (visible : Bool) → List Char → Option Nat
  | _, _, [] => none
  | slashes, visible, c :: cs =>
    if c == mark then
      let run := runLength mark (c :: cs)
      if slashes % 2 == 1 && (run == 3 || 5 ≤ run) then some 1
      else if visible && (run == 2 || 4 ≤ run) then some 0
      else (closingAt? mark 0 false cs).map (· + 1)
    else
      (closingAt? mark (if c == '\\' then slashes + 1 else 0) (!isBlank c) cs).map (· + 1)

/-- The inner text of a span between two marks on each side, and the rest after it. -/
def markedBody? (mark : Char) (s : List Char) : Option (List Char × List Char) :=
  match s with
  | a :: b :: r =>
    if a == mark && b == mark && startsVisible r && r.head? != some mark then
      (closingAt? mark 0 false r).map fun k => (r.take k, r.drop (k + 2))
    else none
  | _ => none

/-- The text up to a run of exactly `n` backquotes, and the rest after it; `fuel` bounds the number
of runs. -/
def codeBody? (n : Nat) : (fuel : Nat) → List Char → Option (List Char × List Char)
  | 0, _ => none
  | fuel + 1, s =>
    let before := s.takeWhile (· != '\x60')
    let r := s.dropWhile (· != '\x60')
    let k := runLength '\x60' r
    if k == 0 then none
    else if k == n then some (before, r.drop k)
    else (codeBody? n fuel (r.drop k)).map fun p => (before ++ r.take k ++ p.1, p.2)

/-- A code text without one space at each end, if it has both and something between them; line feeds
count as spaces. -/
def codeText (s : List Char) : List Char :=
  let t := s.map fun c => if c == '\n' then ' ' else c
  if t.all (· == ' ') then t
  else if t.head? == some ' ' && t.getLast? == some ' ' then (t.drop 1).dropLast
  else t

/-- A character of the scheme of an address. -/
def isSchemeChar (c : Char) : Bool := c.isAlphanum || c == '.' || c == '+' || c == '-'

/-- The scheme of an address with its colon after an angle bracket, and the rest. -/
def scheme? (s : List Char) : Option (List Char × List Char) :=
  match s with
  | c :: r =>
    let tail := r.takeWhile isSchemeChar
    match r.dropWhile isSchemeChar with
    | ':' :: rest =>
      if c.isAlpha && 1 ≤ tail.length && tail.length ≤ 31 then some (c :: tail ++ [':'], rest)
      else none
    | _ => none
  | [] => none

/-- A character of an address between angle brackets. -/
def isAddressChar (c : Char) : Bool := c != '<' && c != '>' && c.toNat > 32

/-- An address between angle brackets, and the rest. -/
def angleAddress? (s : List Char) : Option (List Char × List Char) :=
  match s with
  | '<' :: r =>
    (scheme? r).bind fun p =>
      match p.2.dropWhile isAddressChar with
      | '>' :: rest => some (p.1 ++ p.2.takeWhile isAddressChar, rest)
      | _ => none
  | _ => none

/-- A character of the part of a mail address before the sign. -/
def isMailboxChar (c : Char) : Bool := c.isAlphanum || ".!#$%&'*+/=?^_\x60\x7b|\x7d~-".contains c

/-- Whether a part of a host name is well formed: letters, digits and inner hyphens, 63 at most. -/
def isHostPart (s : List Char) : Bool :=
  s.length ≤ 63 && s.all (fun c => c.isAlphanum || c == '-') &&
    (s.head?.map Char.isAlphanum).getD false && (s.getLast?.map Char.isAlphanum).getD false

/-- A mail address between angle brackets, and the rest. -/
def mailAddress? (s : List Char) : Option (List Char × List Char) :=
  match s with
  | '<' :: r =>
    match r.dropWhile isMailboxChar with
    | '@' :: t =>
      match t.dropWhile (· != '>') with
      | '>' :: rest =>
        let host := t.takeWhile (· != '>')
        if !(r.takeWhile isMailboxChar).isEmpty && (Text.splitAtChar '.' host).all isHostPart then
          some (r.takeWhile isMailboxChar ++ '@' :: host, rest)
        else none
      | _ => none
    | _ => none
  | _ => none

/-- What follows a hard break: a backslash or two spaces before a line feed. -/
def hardBreak? (s : List Char) : Option (List Char) :=
  match s with
  | '\\' :: '\n' :: rest => some (rest.dropWhile isBlank)
  | s =>
    let n := runLength ' ' s
    match s.drop n with
    | '\n' :: rest => if n ≥ 2 then some (rest.dropWhile isBlank) else none
    | _ => none

/-- What follows a soft break: a line feed, perhaps after a space. -/
def softBreak? (s : List Char) : Option (List Char) :=
  match s.dropWhile (· == ' ') with
  | '\n' :: rest => some (rest.dropWhile isBlank)
  | _ => none

/-- What follows a comment of the dialect. -/
def afterComment? (s : List Char) : Option (List Char) :=
  match s with
  | '%' :: '%' :: r => Markup.afterFirst? ['%', '%'] r
  | _ => none

/-- A character between the brackets of a reference in running text. -/
def isReferenceChar (c : Char) : Bool := c != '[' && c != ']' && c != '\n'

/-- The source of a reference in running text, and the rest. -/
def referenceSource? (s : List Char) : Option (List Char × List Char) :=
  let body (front r : List Char) : Option (List Char × List Char) :=
    match r.dropWhile isReferenceChar with
    | ']' :: ']' :: rest => some (front ++ r.takeWhile isReferenceChar ++ [']', ']'], rest)
    | _ => none
  match s with
  | '!' :: '[' :: '[' :: r => body ['!', '[', '['] r
  | '[' :: '[' :: r => body ['[', '['] r
  | _ => none

/-- The reference that a source writes, if it names a note or a place. -/
def referenceOf? (source : List Char) : Option Reference :=
  (Reference.parse? (String.ofList source)).bind fun r =>
    if r.target.isEmpty && (r.anchor.getD "").isEmpty then none else some r

end NoteMarkup.Markdown
