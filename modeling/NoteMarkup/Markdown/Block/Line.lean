import NoteMarkup.Markdown.Block.Basic
import NoteMarkup.Text.Digit

/-!
What a line says about the block that it opens: headings, fences, rules, quotes, list items and the
lines of a table. Every reader here looks at one line without its line feed.
-/

namespace NoteMarkup.Markdown

open Text (isBlank isDigit)

/-- A blank that can stand around the text of a heading. -/
def isHeadingBlank (c : Char) : Bool := isLineBlank c || c == '\n' || c == '\r'

/-- The text of a heading without the closing marks. -/
def trimClosing (text : List Char) : List Char :=
  let back := text.reverse.dropWhile isBlank
  let front := back.dropWhile (· == '#')
  if back.head? != some '#' then text
  else
    match front with
    | [] => []
    | c :: _ => if isBlank c then (front.dropWhile isBlank).reverse else text

/-- A heading: its level and its text. -/
def headingLine? (indent : Nat) (line : List Char) : Option (Nat × List Char) :=
  (unindent? indent line).bind fun p =>
    let n := runLength '#' p.2
    let r := p.2.drop n
    if 1 ≤ n && n ≤ 6 && (r.isEmpty || (r.head?.map isGap).getD false) then
      let text := ((r.dropWhile isHeadingBlank).reverse.dropWhile isHeadingBlank).reverse
      some (n, trimClosing text)
    else none

/-- The level that a line of `=` or `-` under a text gives it. -/
def underline? (line : List Char) : Option Nat :=
  (unindent? 3 line).bind fun p =>
    match (stripGapsRight p.2).reverse with
    | c :: rest =>
      if (c :: rest).all fun d => d == '=' || d == '-' then some (if c == '=' then 1 else 2)
      else none
    | [] => none

/-- Whether a line is a rule: three marks at least, all the same, with gaps between them. -/
def isRule (indent : Nat) (line : List Char) : Bool :=
  match unindent? indent line with
  | some (_, c :: r) =>
    (c == '-' || c == '_' || c == '*') && (c :: r).all (fun d => d == c || isGap d) &&
      ((c :: r).filter (· == c)).length ≥ 3
  | _ => false

/-- The opening of fenced code: the indentation, the marks and the information after them. -/
structure Fence where
  indent : Nat
  mark : Char
  length : Nat
  info : List Char

/-- The fence that a line opens. -/
def fence? (indent : Nat) (line : List Char) : Option Fence :=
  match unindent? indent line with
  | some (n, c :: r) =>
    let k := runLength c (c :: r)
    if (c == '\x60' || c == '~') && k ≥ 3 then
      some ⟨n, c, k, ((c :: r).drop k).dropWhile isGap⟩
    else none
  | _ => none

/-- Whether a line closes a fence. -/
def Fence.closes (f : Fence) (line : List Char) : Bool :=
  match unindent? 3 line with
  | some (_, r) =>
    let k := runLength f.mark r
    k ≥ f.length && (r.drop k).all isGap
  | none => false

/-- The text of a line after the mark of a quote. -/
def quoteLine? (indent : Nat) (line : List Char) : Option (List Char) :=
  match unindent? indent line with
  | some (_, '>' :: r) => some r
  | _ => none

/-- Whether a line, with or without its line feed, is indented as code and has a text. -/
def isCodeLine (line : List Char) : Bool :=
  let n := runLength ' ' line
  let here := line.takeWhile (· != '\n')
  (n ≥ 4 && here.length > 4) || (n < here.length && here[n]? == some '\t' && here.length > n + 1)

/-- The start of a list item: the indentation, the bullet with its number, and the text. -/
structure ItemLine where
  indent : Nat
  marker : List Char
  text : List Char

/-- The last character of the marker of an item. -/
def ItemLine.bullet (i : ItemLine) : Char := i.marker.getLast?.getD '-'

/-- The number of an item; an item with a bullet has none. -/
def ItemLine.number? (i : ItemLine) : Option Nat :=
  if i.marker.length > 1 then
    some (i.marker.dropLast.foldl (fun n c => n * 10 + Text.digitValue c) 0)
  else none

/-- The columns before the text of an item, gaps apart. -/
def ItemLine.width (i : ItemLine) : Nat := i.indent + i.marker.length

/-- An item with a bullet, or with a number of up to nine digits and a bullet after it. -/
def markerLine? (indent : Nat) (isBullet isOrderedBullet : Char → Bool) (line : List Char) :
    Option ItemLine :=
  (unindent? indent line).bind fun p =>
    let digits := p.2.takeWhile isDigit
    match p.2.dropWhile isDigit with
    | c :: r =>
      let fits :=
        if digits.isEmpty then isBullet c else isOrderedBullet c && digits.length ≤ 9
      if fits && (r.isEmpty || (r.head?.map isGap).getD false) then
        some ⟨p.1, digits ++ [c], r⟩
      else none
    | [] => none

/-- The item that a line starts. -/
def itemLine? (indent : Nat) (line : List Char) : Option ItemLine :=
  markerLine? indent (fun c => c == '*' || c == '+' || c == '-') (fun c => c == '.' || c == ')')
    line

/-- The item with the same bullet that a line starts. -/
def nextItemLine? (indent : Nat) (bullet : Char) (line : List Char) : Option ItemLine :=
  let ordered := bullet == '.' || bullet == ')'
  markerLine? indent (fun c => !ordered && c == bullet) (fun c => ordered && c == bullet) line

/-! ### Tables -/

/-- The text between the outer bars of a row. -/
def barredRow? (line : List Char) : Option (List Char) :=
  match line.dropWhile (· == ' ') with
  | '|' :: r =>
    match (stripGapsRight r).reverse with
    | '|' :: body => some body.reverse
    | _ => none
  | _ => none

/-- A row without outer bars. -/
def bareRow? (line : List Char) : Option (List Char) :=
  if line.contains '|' then some line else none

/-- The text between the outer bars of a header, which is not indented as code. -/
def barredHeader? (line : List Char) : Option (List Char) :=
  (unindent? 3 line).bind fun p => barredRow? p.2

/-- A header without outer bars. -/
def bareHeader? (line : List Char) : Option (List Char) :=
  (unindent? 3 line).bind fun p =>
    match p.2 with
    | c :: r => if !isBlank c && r.contains '|' then some p.2 else none
    | [] => none

/-- Whether a line is made of the marks that align columns. -/
def isAligning (line : List Char) : Bool :=
  line.all fun c => c == '-' || c == ':' || c == '|' || c == ' '

/-- The cells of a row: a bar that a backslash escapes does not divide. `word` is the current cell
in reverse. -/
def splitCells (word : List Char) : List Char → List (List Char)
  | [] => [Text.trim word.reverse]
  | '\\' :: c :: rest => splitCells (c :: '\\' :: word) rest
  | '|' :: rest => Text.trim word.reverse :: splitCells [] rest
  | c :: rest => splitCells (c :: word) rest

/-- The cells of a row. -/
def rowCells (row : List Char) : List (List Char) := splitCells [] (Text.trim row)

/-- The alignment that a cell of the aligning line gives its column: an empty cell gives none, and a
cell of another form than dashes with colons at the ends is no alignment. -/
def alignment? (cell : List Char) : Option (Option String) :=
  let left := cell.head? == some ':'
  let right := cell.length > 1 && cell.getLast? == some ':'
  let marks := (if left then cell.drop 1 else cell).reverse.drop (if right then 1 else 0)
  if cell.isEmpty then some none
  else if marks.isEmpty || !marks.all (· == '-') then none
  else if left && right then some (some "center")
  else if left then some (some "left")
  else if right then some (some "right")
  else some none

/-- A row with as many cells as there are columns. -/
def tableRow? (alignments : List (Option String)) (row : List Char) : Option (List Cell) :=
  let cells := rowCells row
  if cells.length == alignments.length then
    some ((cells.zip alignments).map fun p => ⟨p.1, p.2⟩)
  else none

end NoteMarkup.Markdown
