import NoteMarkup.Text.Hex
import NoteMarkup.Text.Surrogate
import NoteMarkup.Yaml.Cursor

/-!
Scalars as written: block scalars, quoted scalars and plain ones. Line breaks inside a scalar fold
into spaces, except in a literal block.
-/

namespace NoteMarkup.Yaml.Scan

/-- The text of a folded line break and of the breaks after it. -/
def foldBreaks (first : List Char) (more : List Char) : List Char :=
  if first != ['\n'] then first ++ more else if more.isEmpty then [' '] else more

/-! ### Block scalars -/

/-- What becomes of the line breaks at the end of a block scalar. -/
inductive Chomping where
  | clip
  | strip
  | keep
deriving DecidableEq

/-- The sign that says it, if it stands here. -/
def chomping : Scan (Option Chomping) := do
  let c ← peek
  if c == '+' then
    step
    return some .keep
  else if c == '-' then
    step
    return some .strip
  else return none

/-- The indentation that the header of a block scalar gives, if it gives one. -/
def indentMark : Scan (Option Nat) := do
  let c ← peek
  if c == '0' then fail "expected indentation indicator in the range 1-9, but found 0"
  else if c.isDigit then
    step
    return some (c.toNat - 48)
  else return none

/-- The header of a block scalar: chomping and indentation in either order. -/
def blockHeader : Scan (Chomping × Option Nat) := do
  let first ← chomping
  let indent ← indentMark
  let second ← if first.isNone && indent.isSome then chomping else pure none
  if !isSpaceEnd (← peek) then fail "expected chomping or indentation indicators"
  return ((first <|> second).getD .clip, indent)

/-- The rest of the line after a header, a directive or the like: spaces and a comment. -/
def endLine : Scan Unit := do
  discard <| takeRun (· == ' ')
  if (← peek) == '#' then discard <| takeRun (!isBreak ·)
  if !isLineEnd (← peek) then fail "expected a comment or a line break"
  discard lineBreak

/-- The blank lines before the text of a block scalar, and the greatest number of spaces on them;
`fuel` bounds the work. -/
def leadingBlank : (fuel : Nat) → (breaks : List Char) → (most : Nat) → Scan (List Char × Nat)
  | 0, breaks, most => return (breaks, most)
  | n + 1, breaks, most => do
    let c ← peek
    if c == ' ' then
      step
      leadingBlank n breaks (max most (← get).column)
    else if isBreak c then
      let b ← lineBreak
      leadingBlank n (breaks ++ b) most
    else return (breaks, most)

/-- Moves over spaces up to a column; `fuel` bounds their number. -/
def spacesTo (column : Nat) : (fuel : Nat) → Scan Unit
  | 0 => return ()
  | n + 1 => do
    if (← get).column < column && (← peek) == ' ' then
      step
      spacesTo column n

/-- The blank lines inside a block scalar; the place after them is at most at the column `indent`.
`fuel` bounds their number. -/
def blankLines (indent : Nat) : (fuel : Nat) → (breaks : List Char) → Scan (List Char)
  | 0, breaks => return breaks
  | n + 1, breaks => do
    spacesTo indent indent
    if isBreak (← peek) then
      let b ← lineBreak
      blankLines indent n (breaks ++ b)
    else return breaks

/-- The lines of a block scalar after the text so far; gives the text, the break after the last line
and the blank lines after it. `fuel` bounds the number of lines. -/
def blockLines (folded : Bool) (indent : Nat) : (fuel : Nat) → (text breaks last : List Char) →
    Scan (List Char × List Char × List Char)
  | 0, text, breaks, last => return (text, last, breaks)
  | n + 1, text, breaks, last => do
    if (← get).column != indent || (← peek) == textEnd then return (text, last, breaks)
    else
      let first ← peek
      let line ← takeRun (!isBreak ·)
      let text := text ++ breaks ++ line
      let last ← lineBreak
      let fuel := (← get).rest.length + 1
      let breaks ← blankLines indent fuel []
      if (← get).column == indent && (← peek) != textEnd then
        let next ← peek
        let isGap (c : Char) : Bool := c == ' ' || c == '\t'
        if folded && last == ['\n'] && !isGap first && !isGap next then
          blockLines folded indent n (if breaks.isEmpty then text ++ [' '] else text) breaks last
        else blockLines folded indent n (text ++ last) breaks last
      else return (text, last, breaks)

/-- A block scalar, after its mark. -/
def blockScalar (folded : Bool) : Scan (List Char) := do
  let c ← get
  let least := (c.indent + 1).toNat.max 1
  let fuel := c.rest.length + 1
  step
  let (chomp, increment) ← blockHeader
  endLine
  let (breaks, indent) ← match increment with
    | none => do
      let (breaks, most) ← leadingBlank fuel [] 0
      pure (breaks, max least most)
    | some k => do
      let indent := least + k - 1
      let breaks ← blankLines indent fuel []
      pure (breaks, indent)
  let (text, last, after) ← blockLines folded indent fuel [] breaks []
  return match chomp with
    | .strip => text
    | .clip => text ++ last
    | .keep => text ++ last ++ after

/-! ### Quoted scalars -/

/-- What an escape of one letter stands for. -/
def escapeOf? (c : Char) : Option Char :=
  [('0', '\x00'), ('a', '\x07'), ('b', '\x08'), ('t', '\t'), ('\t', '\t'), ('n', '\n'),
   ('v', '\x0b'), ('f', '\x0c'), ('r', '\r'), ('e', '\x1b'), (' ', ' '), ('"', '"'), ('\\', '\\'),
   ('/', '/'), ('N', '\u0085'), ('_', '\u00a0'), ('L', '\u2028'), ('P', '\u2029')].lookup c

/-- The number of hexadecimal digits after an escape. -/
def escapeDigits? (c : Char) : Option Nat := [('x', 2), ('u', 4), ('U', 8)].lookup c

/-- The line breaks and the gaps around them inside a quoted scalar; `fuel` bounds their number. -/
def quotedBreaks : (fuel : Nat) → (breaks : List Char) → Scan (List Char)
  | 0, breaks => return breaks
  | n + 1, breaks => do
    if ← atAnyDocumentMark then fail "found unexpected document separator"
    discard <| takeRun fun c => c == ' ' || c == '\t'
    if isBreak (← peek) then
      let b ← lineBreak
      quotedBreaks n (breaks ++ b)
    else return breaks

/-- The second half of a surrogate pair, if a text starts with the escape for one. -/
def lowHalf? : List Char → Option Nat
  | '\\' :: 'u' :: a :: b :: c :: d :: _ => (Text.hexNumber? [a, b, c, d]).filter Text.isLowHalf
  | _ => none

/-- What an escape after a backslash stands for. The escapes for a surrogate pair stand for one
character. -/
def escape : Scan (List Char) := do
  let c ← peek
  match escapeOf? c, escapeDigits? c with
  | some d, _ =>
    step
    return [d]
  | none, some n =>
    step
    let digits := (← get).rest.take n
    match if digits.length == n then Text.hexNumber? digits else none with
    | none => fail "expected hexadecimal numbers"
    | some code =>
      forward n
      if code > 0x7fffffff then throw (.scalar .outOfRange)
      if code > 0x10ffff then
        throw (.scalar (.noValue "chr() arg not in range(0x110000)"))
      let after := (← get).rest
      match if Text.isHighHalf code then lowHalf? after else none with
      | some low =>
        forward 6
        return [Text.pairChar code low]
      | none => return [Text.unitChar code]
  | none, none =>
    if isBreak c then
      discard lineBreak
      quotedBreaks ((← get).rest.length + 1) []
    else fail "found unknown escape character"

/-- A character that needs no care inside quotes. -/
def isQuotedPlain (c : Char) : Bool :=
  c != '\'' && c != '"' && c != '\\' && c != ' ' && c != '\t' && !isBreak c

/-- The text of a quoted scalar after `text`, up to its closing quote; `fuel` bounds the work. -/
def quotedText (double : Bool) : (fuel : Nat) → (text : List Char) → Scan (List Char)
  | 0, _ => fail "found unexpected end of stream"
  | n + 1, text => do
    let run ← takeRun isQuotedPlain
    let text := text ++ run
    let c ← peek
    if c == textEnd then fail "found unexpected end of stream"
    else if c == ' ' || c == '\t' || isBreak c then
      let gaps ← takeRun fun c => c == ' ' || c == '\t'
      let d ← peek
      if d == textEnd then fail "found unexpected end of stream"
      else if isBreak d then
        let first ← lineBreak
        let more ← quotedBreaks ((← get).rest.length + 1) []
        quotedText double n (text ++ foldBreaks first more)
      else quotedText double n (text ++ gaps)
    else if double then
      step
      if c == '"' then return text
      else if c == '\\' then
        let found ← escape
        quotedText double n (text ++ found)
      else quotedText double n (text ++ [c])
    else if c == '\'' then
      if (← peekAt 1) == '\'' then
        forward 2
        quotedText double n (text ++ ['\''])
      else
        step
        return text
    else
      step
      quotedText double n (text ++ [c])

/-- A quoted scalar. -/
def quotedScalar (double : Bool) : Scan (List Char) := do
  step
  quotedText double ((← get).rest.length + 1) []

/-! ### Plain scalars -/

/-- A bracket or a comma. -/
def isFlowMark (c : Char) : Bool := c == ',' || c == '[' || c == ']' || c == '\x7b' || c == '\x7d'

/-- The characters of a plain scalar up to a gap or a mark. -/
def plainRun (inFlow : Bool) : List Char → List Char
  | [] => []
  | c :: cs =>
    let next := cs.headD textEnd
    if isGapEnd c || (c == ':' && (isGapEnd next || (inFlow && isFlowMark next))) ||
        (inFlow && (isFlowMark c || c == '?')) then []
    else c :: plainRun inFlow cs

/-- The breaks and spaces after the first break in a plain scalar; none if a document mark follows.
`fuel` bounds the work. -/
def plainBreaks : (fuel : Nat) → (breaks : List Char) → Scan (Option (List Char))
  | 0, breaks => return some breaks
  | n + 1, breaks => do
    let c ← peek
    if c == ' ' then
      step
      plainBreaks n breaks
    else if isBreak c then
      let b ← lineBreak
      if ← atAnyDocumentMark then return none
      plainBreaks n (breaks ++ b)
    else return some breaks

/-- The gap inside a plain scalar, folded; empty if the scalar ends here. -/
def plainGap : Scan (List Char) := do
  let spaces ← takeRun (· == ' ')
  if isBreak (← peek) then
    let first ← lineBreak
    allowKey true
    if ← atAnyDocumentMark then return []
    match ← plainBreaks ((← get).rest.length + 1) [] with
    | none => return []
    | some more => return foldBreaks first more
  else return spaces

/-- The text of a plain scalar after `text` and the gap `gap`; `fuel` bounds the work. -/
def plainText (indent : Int) : (fuel : Nat) → (text gap : List Char) → Scan (List Char)
  | 0, text, _ => return text
  | n + 1, text, gap => do
    let c ← get
    let inFlow := c.flow != 0
    let run := plainRun inFlow c.rest
    if c.rest.head? == some '#' || run.isEmpty then return text
    else
      allowKey false
      forward run.length
      let text := text ++ gap ++ run
      let gap ← plainGap
      let c ← get
      if gap.isEmpty || c.rest.head? == some '#' || (!inFlow && c.column < indent) then return text
      else plainText indent n text gap

/-- A plain scalar. -/
def plainScalar : Scan (List Char) := do
  let c ← get
  plainText (c.indent + 1) (c.rest.length + 1) [] []

end NoteMarkup.Yaml.Scan
