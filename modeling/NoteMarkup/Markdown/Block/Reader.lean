import NoteMarkup.Markdown.Block.Leaf

/-!
Quotes, lists and whole notes. The inner text of a quote or of a list item is freed of its marks and
read as blocks of its own. A line without marks goes on with the paragraph inside, unless it opens
something else.
-/

namespace NoteMarkup.Markdown

open Text (isBlank)

/-- How deep quotes and lists nest; below, the block of the same kind is not known. -/
def deepest : Nat := 19

/-- The line of a quote without the spaces and the mark before it. -/
def dropQuoteMark (line : List Char) : List Char :=
  match line.dropWhile (· == ' ') with
  | '>' :: r => r
  | _ => line

/-- Lines after the mark of a quote without the space that may follow the mark. -/
def quoteInner (s : List Char) : List Char := mapLines (trimIndent 1) (tabToStop 3 s)

/-- Whether a quote that starts with this text goes on with marked lines only. -/
def needsMarks (text : List Char) : Bool :=
  startsBlank text || isCodeLine text || (fence? 3 (splitLine text).1).isSome

/-- Whether a text is blank or ends with a blank line after another line. -/
def endsBlank (s : List Char) : Bool :=
  s.all isBlank ||
    match s.reverse with
    | '\n' :: r =>
      match r.dropWhile isGap with
      | '\n' :: _ => true
      | _ => false
    | _ => false

/-- The marked lines of a quote at the start of a text, and the rest. -/
def markedLines (s : List Char) : List Char × List Char :=
  let (lines, rest) := linesWhile (quoteLine? 3) s.length s
  (lines.flatten, rest)

/-- The inner text of marked lines. -/
def markedInner (raw : List Char) : List Char := quoteInner (mapLines dropQuoteMark raw)

/-- What ends a quote on a line without a mark. -/
def quoteBreaks : List Rule := [.blank, .thematicBreak, .fenced, .list, .knownMarkup]

/-- The inner text of the first line of an item, and the columns that further lines are indented
by. -/
def itemText (item : ItemLine) : List Char × Nat :=
  let text := widenGaps item.width item.text
  let blanks := (text.takeWhile isBlank).length
  if text.all isBlank then ([], item.width + 1)
  else
    let gap := if runLength ' ' text ≥ 5 then 1 else blanks
    (text.drop gap ++ ['\n'], item.width + gap)

/-- A line that goes on with a paragraph although it is not indented by `columns`. It underlines no
heading: one that could is indented beyond that. -/
def lazyLine (columns : Nat) (line : List Char) : List Char :=
  if (underline? (splitLine line).1).isSome then
    List.replicate (columns + 4) ' ' ++ line.dropWhile (· == ' ')
  else line

/-- Further lines of an item without their indentation. -/
def itemInner (columns : Nat) (s : List Char) : List Char :=
  mapLines
    (fun line =>
      if runLength ' ' line ≥ columns then widenTab (fun _ => 4) (line.drop columns) else line)
    s

/-- The text of an item without the blank lines at its end. -/
def stripBlankEnd (s : List Char) : List Char :=
  let blanks := (s.reverse.takeWhile isBlank).reverse
  if blanks.contains '\n' then
    s.take (s.length - blanks.length) ++ blanks.takeWhile (· != '\n') ++ ['\n']
  else s

/-- Whether the blocks of an item make its list loose. -/
def isLoose (blocks : List Block) : Bool :=
  let isParagraph : Block → Bool
    | .paragraph _ => true
    | _ => false
  let isBlankBlock : Block → Bool
    | .blank => true
    | _ => false
  blocks.any isBlankBlock || (blocks.filter isParagraph).length > 1

/-- What a line of an item that is not indented can open. -/
inductive ItemBreak where
  | item (next : ItemLine)
  | block (rule : Rule)

/-- The rule of the block that a line opens, if it opens no item. -/
def ItemBreak.rule? : ItemBreak → Option Rule
  | .item _ => none
  | .block rule => some rule

/-- What the next line opens, `indent` spaces apart, in the list with a bullet. -/
def itemBreak? (indent : Nat) (bullet : Char) (s : List Char) : Option ItemBreak :=
  if Rule.opens indent s .thematicBreak then some (.block .thematicBreak)
  else
    match nextItemLine? indent bullet (splitLine s).1 with
    | some next => some (.item next)
    | none =>
      let rules : List Rule := [.fenced, .heading, .quote, .knownMarkup, .list]
      (rules.find? (·.opens indent s)).map .block

/-- The further lines of an item. If another item follows, `next` is its line and `loose` tells
whether a blank line stands before it. If another block ended the list, `position` is the number of
blocks before the list. -/
structure ItemRead where
  source : List Char
  reading : Reading
  next : Option ItemLine
  loose : Bool
  position : Option Nat

/-- The items of a list, newest first. -/
structure ListRead where
  items : List (List Block)
  tight : Bool
  reading : Reading
  position : Option Nat

mutual

/-- Reads blocks until the text ends; `fuel` bounds the work. -/
def readBlocks (fuel : Nat) (rules : List Rule) (depth : Nat) (st : Reading) : Reading :=
  match fuel with
  | 0 => (st.addText st.rest).goTo []
  | fuel + 1 =>
    if st.rest.isEmpty then st
    else
      let found := (rules.find? (·.opens 3 st.rest)).bind fun r => readRule? fuel r depth st
      readBlocks fuel rules depth (found.getD st.takeLine)

/-- Reads the block of a rule. -/
def readRule? (fuel : Nat) (rule : Rule) (depth : Nat) (st : Reading) : Option Reading :=
  match fuel with
  | 0 => none
  | fuel + 1 =>
    match rule with
    | .quote => readQuote? fuel depth st
    | .list => readList? fuel depth st
    | .underline =>
      match st.blocks with
      | .paragraph text :: bs =>
        (underline? (splitLine st.rest).1).map fun level =>
          ({ st with blocks := .heading level text :: bs }).goTo (splitLine st.rest).2
      | _ =>
        (([.thematicBreak, .list] : List Rule).find? (·.opens 3 st.rest)).bind fun r =>
          readRule? fuel r depth st
    | r => r.readLeaf? st

/-- Reads a quote. A block that ended it stands after it. -/
def readQuote? (fuel : Nat) (depth : Nat) (st : Reading) : Option Reading :=
  match fuel, quoteLine? 3 (splitLine st.rest).1 with
  | 0, _ => none
  | _, none => none
  | fuel + 1, some line =>
    let first := quoteInner (line ++ ['\n'])
    let st := st.goTo (splitLine st.rest).2
    let (text, broken, st) :=
      if needsMarks first then
        let (raw, rest) := markedLines st.rest
        (first ++ markedInner raw, false, st.goTo rest)
      else quoteLines fuel depth first false st
    let rules := if depth ≥ deepest then Rule.inner.erase .quote else Rule.inner
    let inner := readBlocks fuel rules (depth + 1) (.start (tabToFour text) st.definitions)
    let quote := Block.quote inner.blocks.reverse
    let st := { st with definitions := inner.definitions }
    match broken, st.blocks with
    | true, b :: bs => some { st with blocks := b :: quote :: bs }
    | _, _ => some (st.push quote)

/-- The further lines of a quote after the inner text `text`, and whether another block ended it;
`afterBlank` tells whether the text ends with a blank line. -/
def quoteLines (fuel : Nat) (depth : Nat) (text : List Char) (afterBlank : Bool) (st : Reading) :
    List Char × Bool × Reading :=
  match fuel with
  | 0 => (text, false, st)
  | fuel + 1 =>
    if st.rest.isEmpty then (text, false, st)
    else
      let (raw, rest) := markedLines st.rest
      if !raw.isEmpty then
        let inner := markedInner raw
        quoteLines fuel depth (text ++ inner) (endsBlank inner) (st.goTo rest)
      else if afterBlank then (text, false, st)
      else
        match (quoteBreaks.find? (·.opens 3 st.rest)).bind fun r => readRule? fuel r depth st with
        | some next => (text, true, next)
        | none =>
          let line := lazyLine 0 (tabToStop 3 (firstLine st.rest))
          quoteLines fuel depth (text ++ line) false (st.goTo (splitLine st.rest).2)

/-- Reads a list. An empty item cannot interrupt a paragraph, nor can a number other than one. -/
def readList? (fuel : Nat) (depth : Nat) (st : Reading) : Option Reading :=
  match fuel, itemLine? 3 (splitLine st.rest).1 with
  | 0, _ => none
  | _, none => none
  | fuel + 1, some item =>
    let start := item.number?.filter (· != 1)
    let interrupted :=
      if item.text.all isBlank || start.isSome then st.continueParagraph? else none
    match interrupted with
    | some next => some next
    | none =>
      let read := readItems fuel depth item.bullet true [] item (st.goTo (splitLine st.rest).2)
      let list := Block.list start item.number?.isSome read.tight read.items.reverse
      let blocks := read.reading.blocks
      let newer := match read.position with
        | some k => blocks.length - k
        | none => 0
      some { read.reading with blocks := blocks.take newer ++ list :: blocks.drop newer }

/-- Reads an item and those after it. -/
def readItems (fuel : Nat) (depth : Nat) (bullet : Char) (tight : Bool)
    (items : List (List Block)) (item : ItemLine) (st : Reading) : ListRead :=
  match fuel with
  | 0 => ⟨items, tight, st, none⟩
  | fuel + 1 =>
    let (text, columns) := itemText item
    let read := itemLines fuel depth bullet item.width columns text.isEmpty [] false st
    let inner := stripBlankEnd (text ++ itemInner columns read.source)
    let rules := if depth ≥ deepest then Rule.inner.erase .list else Rule.inner
    let content := readBlocks fuel rules (depth + 1) (.start inner read.reading.definitions)
    let blocks := content.blocks.reverse
    let tight := tight && !read.loose && !isLoose blocks
    let st := { read.reading with definitions := content.definitions }
    match read.next with
    | some next => readItems fuel depth bullet tight (blocks :: items) next st
    | none => ⟨blocks :: items, tight, st, read.position⟩

/-- The further lines of an item after the lines `source`; `empty` tells whether its first line has
no text, and `afterBlank` whether a blank line stands before. A list of another kind ends this one
and is read after it. -/
def itemLines (fuel : Nat) (depth : Nat) (bullet : Char) (width columns : Nat) (empty : Bool)
    (source : List Char) (afterBlank : Bool) (st : Reading) : ItemRead :=
  match fuel with
  | 0 => ⟨source, st, none, false, none⟩
  | fuel + 1 =>
    let after := (splitLine st.rest).2
    let goOn (line : List Char) (blank : Bool) : ItemRead :=
      itemLines fuel depth bullet width columns empty (source ++ line) blank (st.goTo after)
    if st.rest.isEmpty then ⟨source, st, none, false, none⟩
    else if startsBlank (firstLine st.rest) then goOn ['\n'] true
    else
      let line := tabToStop 4 (firstLine st.rest)
      if runLength ' ' line ≥ columns then
        if afterBlank && empty && source.all isBlank then ⟨source, st, none, false, none⟩
        else goOn line false
      else
        match itemBreak? (min 3 width) bullet st.rest with
        | some (.item next) => ⟨source, st.goTo after, some next, afterBlank, none⟩
        | some (.block .list) => ⟨source, st, none, false, none⟩
        | found =>
          match (found.bind ItemBreak.rule?).bind fun r => readRule? fuel r depth st with
          | some next => ⟨source, next, none, false, some st.blocks.length⟩
          | none =>
            if afterBlank then ⟨source, st, none, false, none⟩
            else goOn (lazyLine columns line) false

end

/-- The text of a note as lines that all end. -/
def noteLines (s : List Char) : List Char :=
  let t := Text.normalizeLines s
  if t.getLast? == some '\n' then t else t ++ ['\n']

/-- The blocks of a note and the definitions in it. -/
def readNote (text : List Char) : List Block × Definitions :=
  let src := noteLines text
  let fuel := 4 * (src.length + 4) * (src.length + 4)
  let read := readBlocks fuel Rule.outer 0 (.start src [])
  (read.blocks.reverse, read.definitions)

/-- The tokens of a note. -/
def tokensOf (dialect : Dialect) (text : List Char) : List Token :=
  let (blocks, definitions) := readNote text
  Block.tokens ⟨dialect, definitions⟩ blocks

end NoteMarkup.Markdown
