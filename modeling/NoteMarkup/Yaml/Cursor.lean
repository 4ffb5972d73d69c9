import NoteMarkup.LoadFault
import NoteMarkup.Yaml.Token

/-!
A place in a YAML text, with what the tokens so far mean for the tokens to come: the indentation of
the open blocks, the number of open brackets, and the places where a key without a mark may have
begun.
-/

namespace NoteMarkup.Yaml

/-- A line break of any kind. -/
def isBreak (c : Char) : Bool :=
  c == '\n' || c == '\r' || c == '\u0085' || c == '\u2028' || c == '\u2029'

/-- The character that stands for the end of the text, which holds none itself. -/
def textEnd : Char := '\x00'

/-- A line break or the end. -/
def isLineEnd (c : Char) : Bool := isBreak c || c == textEnd

/-- A space, a line break or the end. -/
def isSpaceEnd (c : Char) : Bool := isLineEnd c || c == ' '

/-- A space, a tab, a line break or the end. -/
def isGapEnd (c : Char) : Bool := isSpaceEnd c || c == '\t'

/-- The mark that does not count as a column. -/
def byteOrderMark : Char := '\ufeff'

/-- Where a key without a mark may have begun: the number of tokens before it and its place. It is
required if its column is that of the block. -/
structure KeyPlace where
  tokens : Nat
  required : Bool
  index : Nat
  line : Nat
  column : Nat

/-- A place in a text. -/
structure Cursor where
  rest : List Char
  index : Nat
  line : Nat
  column : Nat
  /-- The number of open brackets. -/
  flow : Nat
  /-- The column of the open block, −1 outside, and those of the blocks around it. -/
  indent : Int
  indents : List Int
  /-- Whether a key without a mark may begin here. -/
  allowKey : Bool
  /-- The possible keys, one for each number of open brackets. -/
  keys : List (Nat × KeyPlace)
  tokens : Array Token

/-- The start of a text. -/
def Cursor.start (text : List Char) : Cursor := ⟨text, 0, 0, 0, 0, -1, [], true, [], #[]⟩

/-- Whether a possible key is on another line or too far back. -/
def Cursor.isStale (c : Cursor) (k : KeyPlace) : Bool :=
  k.line != c.line || c.index - k.index > 1024

/-- A computation that moves through a text and may find it malformed. -/
abbrev Scan := StateT Cursor (Except LoadFault)

namespace Scan

/-- Gives up. -/
def fail {α : Type} (cause : String) : Scan α := throw (.malformed cause)

/-- The character `n` places ahead. -/
def peekAt (n : Nat) : Scan Char := do return (← get).rest.getD n textEnd

/-- The next character. -/
def peek : Scan Char := peekAt 0

/-- Moves over one character. -/
def step : Scan Unit := modify fun c =>
  match c.rest with
  | [] => c
  | a :: rest =>
    let c := { c with rest := rest, index := c.index + 1 }
    if (isBreak a && a != '\r') || (a == '\r' && rest.head? != some '\n') then
      { c with line := c.line + 1, column := 0 }
    else if a == byteOrderMark then c
    else { c with column := c.column + 1 }

/-- Moves over `n` characters. -/
def forward : (n : Nat) → Scan Unit
  | 0 => return ()
  | n + 1 => do
    step
    forward n

/-- Moves over the longest run of characters of a class and gives it. -/
def takeRun (p : Char → Bool) : Scan (List Char) := do
  let run := (← get).rest.takeWhile p
  forward run.length
  return run

/-- Moves over a line break and gives what it stands for; moves nowhere if there is none. -/
def lineBreak : Scan (List Char) := do
  let c ← peek
  if c == '\r' then
    if (← peekAt 1) == '\n' then forward 2 else step
    return ['\n']
  else if c == '\n' || c == '\u0085' then
    step
    return ['\n']
  else if c == '\u2028' || c == '\u2029' then
    step
    return [c]
  else return []

/-- Whether three hyphens or three dots stand alone here. -/
def atDocumentMark (mark : Char) : Scan Bool := do
  let rest := (← get).rest
  return rest.take 3 == [mark, mark, mark] && isGapEnd (rest.getD 3 textEnd)

/-- Whether the mark of a document stands here. -/
def atAnyDocumentMark : Scan Bool := do
  let start ← atDocumentMark '-'
  let stop ← atDocumentMark '.'
  return start || stop

/-- Adds a token. -/
def emit (t : Token) : Scan Unit := modify fun c => { c with tokens := c.tokens.push t }

/-- Sets whether a key without a mark may begin. -/
def allowKey (allowed : Bool) : Scan Unit := modify fun c => { c with allowKey := allowed }

/-! ### Possible keys -/

/-- Takes a possible key off its level. A required one must not be lost. -/
def dropKey : Scan Unit := do
  let c ← get
  match c.keys.lookup c.flow with
  | none => return ()
  | some k =>
    if k.required then fail "could not find expected ':'"
    set { c with keys := c.keys.filter fun e => e.1 != c.flow }

/-- Takes off the possible keys that are on another line or too far back. -/
def dropStaleKeys : Scan Unit := do
  let c ← get
  if c.keys.any fun e => c.isStale e.2 && e.2.required then fail "could not find expected ':'"
  set { c with keys := c.keys.filter fun e => !c.isStale e.2 }

/-- Notes that a key without a mark may begin here. -/
def saveKey : Scan Unit := do
  let c ← get
  if c.allowKey then
    dropKey
    let isRequired := c.flow == 0 && c.indent == c.column
    let k : KeyPlace := ⟨c.tokens.size, isRequired, c.index, c.line, c.column⟩
    modify fun c => { c with keys := (c.flow, k) :: c.keys }

/-! ### Indentation -/

/-- Closes the blocks that are indented further than a column; brackets suspend indentation.
`fuel` bounds their number. -/
def unwindFrom : (fuel : Nat) → (column : Int) → Scan Unit
  | 0, _ => return ()
  | n + 1, column => do
    let c ← get
    if c.flow == 0 && c.indent > column then
      set { c with indent := c.indents.headD (-1), indents := c.indents.drop 1 }
      emit .blockEnd
      unwindFrom n column

/-- Closes the blocks that are indented further than a column. -/
def unwind (column : Int) : Scan Unit := do unwindFrom ((← get).indents.length + 1) column

/-- Opens a block at a column, if it is indented further than the open one. -/
def addIndent (column : Nat) : Scan Bool := do
  let c ← get
  if c.indent < column then
    set { c with indent := (column : Int), indents := c.indent :: c.indents }
    return true
  else return false

end Scan

end NoteMarkup.Yaml
