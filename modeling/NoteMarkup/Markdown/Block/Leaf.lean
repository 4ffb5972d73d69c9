import NoteMarkup.Markdown.Block.Line

/-!
Blocks that hold no other blocks. The text of a note is read line by line; a line that opens nothing
is added to the paragraph before it.
-/

namespace NoteMarkup.Markdown

open Text (isBlank)

/-- A note that is being read: the lines to come, the blocks so far, newest first, and the
definitions so far. -/
structure Reading where
  rest : List Char
  blocks : List Block
  definitions : Definitions

namespace Reading

/-- A text of which nothing is read. -/
def start (text : List Char) (definitions : Definitions) : Reading := ⟨text, [], definitions⟩

/-- Goes on at a line. -/
def goTo (st : Reading) (rest : List Char) : Reading := { st with rest := rest }

/-- Adds a block. -/
def push (st : Reading) (b : Block) : Reading := { st with blocks := b :: st.blocks }

/-- Adds text to the paragraph at the end, or starts one. -/
def addText (st : Reading) (text : List Char) : Reading :=
  match st.blocks with
  | .paragraph before :: bs => { st with blocks := .paragraph (before ++ text) :: bs }
  | _ => st.push (.paragraph text)

/-- Adds the next line to the text. -/
def takeLine (st : Reading) : Reading :=
  (st.addText (firstLine st.rest)).goTo (splitLine st.rest).2

/-- Adds the next line to the paragraph at the end, if there is one. -/
def continueParagraph? (st : Reading) : Option Reading :=
  match st.blocks with
  | .paragraph _ :: _ => some st.takeLine
  | _ => none

/-- Adds a block that takes the next line. -/
def pushLine (st : Reading) (b : Block) : Reading := (st.push b).goTo (splitLine st.rest).2

end Reading

/-- The lines up to the one that closes a fence, and the text after that one; `fuel` bounds the
number of lines. -/
def fencedBody (f : Fence) : (fuel : Nat) → List Char → List Char × List Char
  | 0, s => (s, [])
  | n + 1, s =>
    let (line, after) := splitLine s
    if s.isEmpty then ([], [])
    else if f.closes line then ([], after)
    else
      let (body, rest) := fencedBody f n after
      (firstLine s ++ body, rest)

/-- Fenced code. The information after marks of backquotes holds none. -/
def fencedCode? (st : Reading) : Option Reading :=
  let (line, after) := splitLine st.rest
  match fence? 3 line with
  | none => none
  | some f =>
    if f.mark == '\x60' && f.info.contains '\x60' then none
    else
      let (body, rest) := fencedBody f (after.length + 1) after
      let info := if f.info.isEmpty then none else some (Text.trim (unescapeMarks f.info))
      some ((st.push (.code (mapLines (trimIndent f.indent) body) info)).goTo rest)

/-- The text after the blank lines at its start; any blanks may stand on them. -/
def afterBlankLines (s : List Char) : List Char :=
  s.drop ((s.takeWhile isBlank).reverse.dropWhile (· != '\n')).length

/-- The text after the lines of indented code and the blank lines between and after them; `fuel`
bounds their number. -/
def afterIndented : (fuel : Nat) → List Char → List Char
  | 0, s => s
  | n + 1, s => if isCodeLine s then afterIndented n (afterBlankLines (splitLine s).2) else s

/-- Indented code, which cannot interrupt a paragraph. -/
def indentedCode (st : Reading) : Reading :=
  match st.continueParagraph? with
  | some next => next
  | none =>
    let rest := afterIndented st.rest.length st.rest
    let source := consumed st.rest rest
    let body := stripFeeds (mapLines (trimIndent 4) (tabToStop 4 source))
    (st.push (.code body none)).goTo rest

/-- A definition of a label, which cannot interrupt a paragraph. The first definition counts. -/
def definition? (st : Reading) : Option Reading :=
  match st.continueParagraph? with
  | some next => next
  | none =>
    match (unindent? 3 st.rest).map (·.2) with
    | some ('[' :: r) =>
      match label? labelRoom r with
      | some (l, ':' :: r) =>
        let key := labelKey l
        if key.isEmpty then none
        else
          (definitionDestination? r).map fun p =>
            { st.goTo p.2 with definitions := st.definitions.add key p.1 }
      | _ => none
    | _ => none

/-- Markup up to the end of the line on which a text occurs after `after`, or to the end. -/
def markupTo (st : Reading) (mark after : List Char) : Reading :=
  match Markup.afterFirst? mark after with
  | none => (st.push (.markup st.rest)).goTo []
  | some r =>
    let back := mark ++ r
    let rest := (splitLine back).2
    (st.push (.markup (consumed st.rest back ++ firstLine back))).goTo rest

/-- Markup up to the next blank line. -/
def markupToBlank (st : Reading) : Reading :=
  let source := upToBlankLine st.rest.length 0 st.rest
  (st.push (.markup source)).goTo (st.rest.drop source.length)

/-- A block of markup. A tag that is not known is one only if it fills a line, and cannot interrupt
a paragraph. -/
def markup? (st : Reading) : Option Reading :=
  match (unindent? 3 st.rest).bind fun p => Markup.opening? p.2 with
  | none => none
  | some (.comment, after) => some (markupTo st ['-', '-', '>'] after)
  | some (.instruction, after) => some (markupTo st ['?', '>'] after)
  | some (.characterData, after) => some (markupTo st [']', ']', '>'] after)
  | some (.declaration, after) => some (markupTo st ['>'] after)
  | some (.openTag name, after) =>
    let name := Text.lower name
    if Markup.verbatimTags.contains (String.ofList name) then
      some (markupTo st ('<' :: '/' :: name ++ ['>']) after)
    else if Markup.blockTags.contains (String.ofList name) then some (markupToBlank st)
    else
      match st.continueParagraph? with
      | some next => some next
      | none =>
        let line := firstLine after
        (Markup.attributesThen Markup.lineTagEnd? line.length line).map fun _ => markupToBlank st
  | some (.closeTag name, after) =>
    if Markup.blockTags.contains (String.ofList (Text.lower name)) then some (markupToBlank st)
    else
      match st.continueParagraph? with
      | some next => some next
      | none => (Markup.lineTagEnd? after).map fun _ => markupToBlank st

/-- The lines at the start of a text that `row?` accepts, and the rest; `fuel` bounds their
number. -/
def linesWhile (row? : List Char → Option (List Char)) : (fuel : Nat) → List Char →
    List (List Char) × List Char
  | 0, s => ([], s)
  | n + 1, s =>
    if s.isEmpty then ([], s)
    else
      match row? (splitLine s).1 with
      | none => ([], s)
      | some _ =>
        let (rows, rest) := linesWhile row? n (splitLine s).2
        (firstLine s :: rows, rest)

/-- The lines of a table: the header, the line that aligns the columns, and the rows if each is one,
all without their outer bars. -/
structure TableLines where
  header : List Char
  aligning : List Char
  rows : Option (List (List Char))
  rest : List Char

/-- The lines of a table, given how its header and its other lines look. -/
def tableLines? (header? row? : List Char → Option (List Char)) (s : List Char) :
    Option TableLines := do
  let (first, afterHeader) := splitLine s
  let (second, afterAligning) := splitLine afterHeader
  let header ← header? first
  let aligning ← row? second
  let (rows, rest) := linesWhile row? afterAligning.length afterAligning
  let rows := (Text.lines rows.flatten).mapM fun line => row? (Text.chomp line)
  if isAligning second then some ⟨header, aligning, rows, rest⟩ else none

/-- The lines of a table with outer bars. -/
def barredTable? (s : List Char) : Option TableLines := tableLines? barredHeader? barredRow? s

/-- The lines of a table without outer bars. -/
def bareTable? (s : List Char) : Option TableLines := tableLines? bareHeader? bareRow? s

/-- The table that lines make, if each has as many cells as there are columns. -/
def TableLines.block? (t : TableLines) : Option Block := do
  let alignments ← (rowCells t.aligning).mapM alignment?
  let header ← tableRow? alignments t.header
  let rows ← (← t.rows).mapM (tableRow? alignments)
  return .table header rows

/-- Reads the lines of a table. Lines that make no table are a paragraph. -/
def readTable (t : TableLines) (st : Reading) : Reading :=
  match t.block? with
  | some b => (st.push b).goTo (t.rest.dropWhile (· == '\n'))
  | none => (st.addText (consumed st.rest t.rest)).goTo t.rest

/-- What can open at the start of a line. -/
inductive Rule where
  | fenced
  | indented
  | heading
  | underline
  | thematicBreak
  | quote
  | list
  | definition
  | markup
  | knownMarkup
  | blank
  | table
  | bareTable
deriving DecidableEq, Repr

namespace Rule

/-- The rules inside a quote or a list item, in the order in which they are tried. -/
def inner : List Rule :=
  [.fenced, .indented, .heading, .underline, .thematicBreak, .quote, .list, .definition, .markup,
   .blank]

/-- The rules for a whole note: only there are tables known. -/
def outer : List Rule := inner ++ [.table, .bareTable]

/-- Whether the text starts like a block of the rule, at most `indent` spaces apart. A block that
starts so may still turn out to be none; no other rule is tried then. -/
def opens (indent : Nat) (s : List Char) (r : Rule) : Bool :=
  let line := (splitLine s).1
  match r with
  | .fenced => (fence? indent line).isSome
  | .indented => isCodeLine line
  | .heading => (headingLine? indent line).isSome
  | .underline => (underline? line).isSome
  | .thematicBreak => isRule indent line
  | .quote => (quoteLine? indent line).isSome
  | .list => (itemLine? indent line).isSome
  | .definition =>
    match (unindent? indent s).map (·.2) with
    | some ('[' :: r) =>
      match label? labelRoom r with
      | some (_, ':' :: _) => true
      | _ => false
    | _ => false
  | .markup => ((unindent? indent s).bind fun p => Markup.opening? p.2).isSome
  | .knownMarkup => ((unindent? indent s).map fun p => Markup.breaks p.2).getD false
  | .blank => startsBlank s
  | .table => (barredTable? s).isSome
  | .bareTable => (bareTable? s).isSome

/-- Reads the block of a rule for a block without inner blocks. -/
def readLeaf? (st : Reading) (r : Rule) : Option Reading :=
  let line := (splitLine st.rest).1
  match r with
  | .fenced => fencedCode? st
  | .indented => some (indentedCode st)
  | .heading => (headingLine? 3 line).map fun p => st.pushLine (.heading p.1 p.2)
  | .thematicBreak => some (st.pushLine .thematicBreak)
  | .definition => definition? st
  | .markup | .knownMarkup => markup? st
  | .blank => some ((st.push .blank).goTo (dropBlankLines st.rest.length st.rest))
  | .table => (barredTable? st.rest).map (readTable · st)
  | .bareTable => (bareTable? st.rest).map (readTable · st)
  | .underline | .quote | .list => none

end Rule

end NoteMarkup.Markdown
