import NoteMarkup.Markdown.Inline.Delimiter
import NoteMarkup.Markdown.Inline.Emphasis

/-!
Reading inline items. The text is scanned from left to right; the first place where a rule applies
is taken, and what no rule recognizes is text. A bracket opens a link or an image that only its
closing bracket decides on, and a link holds no other link. Emphasis is joined between brackets and
at the end, so that every other item binds more tightly. The text inside doubled marks stands alone.
-/

namespace NoteMarkup.Markdown

open Text (isBlank)

/-- The marks of the dialect that the reader knows. -/
structure Dialect where
  marks : Bool
  comments : Bool
  references : Bool
  tags : Bool
deriving Repr, DecidableEq

/-- What the meaning of a text depends on: the dialect and the definitions of labels. -/
structure Setting where
  dialect : Dialect
  definitions : Definitions

/-- How deep inline items nest. -/
def mostNested : Nat := 20

/-- The characters of `s` before its end part `rest`. -/
def consumed (s rest : List Char) : List Char := s.take (s.length - rest.length)

/-- A bracket that may open a link or an image. -/
structure Bracket where
  isImage : Bool
  /-- Whether it can open a link: it stands in no anchor, and no link stands after it yet. -/
  free : Bool
  /-- The text after it. -/
  source : List Char
  /-- The parts before it, in reverse. -/
  before : List Piece

/-- The bracket as text, after the parts before it. -/
def Bracket.asText (b : Bracket) : List Piece :=
  Piece.addText b.before (if b.isImage then ['!', '['] else ['['])

/-- What has been read of a text: the parts after the innermost open bracket, in reverse, the open
brackets, the innermost first, and whether raw markup has opened an anchor. -/
structure Scan where
  pieces : List Piece
  brackets : List Bracket
  inAnchor : Bool

namespace Scan

/-- Nothing has been read. -/
def start (inAnchor : Bool) : Scan := ⟨[], [], inAnchor⟩

/-- Adds an item. -/
def add (s : Scan) (i : Inline) : Scan := { s with pieces := .item i :: s.pieces }

/-- Adds plain text. -/
def addText (s : Scan) (text : List Char) : Scan :=
  { s with pieces := Piece.addText s.pieces text }

/-- Opens a bracket before the text `source`. -/
def openBracket (s : Scan) (isImage : Bool) (source : List Char) : Scan :=
  { s with pieces := [], brackets := ⟨isImage, !s.inAnchor, source, s.pieces⟩ :: s.brackets }

/-- All parts, in reverse. Brackets that are open are text. -/
def all (s : Scan) : List Piece := s.brackets.foldl (fun ps b => ps ++ b.asText) s.pieces

end Scan

/-- A code span, or its opening marks if nothing closes it. -/
def codeSpan (s : Scan) (text : List Char) : Scan × List Char :=
  let n := runLength '\x60' text
  let r := text.drop n
  match codeBody? n r.length r with
  | some (body, rest) => (s.add (.code (codeText body)), rest)
  | none => (s.addText (text.take n), r)

/-- Raw markup. -/
def rawMarkup? (s : Scan) (text : List Char) : Option (Scan × List Char) :=
  (Markup.inline? text).map fun rest =>
    let source := consumed text rest
    let opens (front : String) : Bool := (Text.afterFront? front.toList source).isSome
    let inAnchor :=
      if opens "<a " || opens "<a>" || opens "<A " || opens "<A>" then true
      else if opens "</a " || opens "</a>" || opens "</A " || opens "</A>" then false
      else s.inAnchor
    ({ s.add (.markup source) with inAnchor := inAnchor }, rest)

/-- An address between angle brackets and the text after it; plain text inside an anchor. -/
def address (s : Scan) (text url address rest : List Char) : Scan × List Char :=
  let source := consumed text rest
  if s.inAnchor then (s.addText source, rest)
  else (s.add (.address source ⟨Destination.urlOf url, none⟩ address), rest)

/-- An address or raw markup between angle brackets. -/
def angled? (s : Scan) (text : List Char) : Option (Scan × List Char) :=
  match angleAddress? text with
  | some (a, rest) => some (address s text a a rest)
  | none =>
    match mailAddress? text with
    | some (a, rest) => some (address s text ("mailto:".toList ++ a) a rest)
    | none => rawMarkup? s text

/-- The text of a span between doubled marks, and the text after it. -/
def marked? (set : Setting) (s : List Char) : Option (SpanKind × List Char × List Char) :=
  match s with
  | '~' :: _ => (markedBody? '~' s).map fun p => (.strikethrough, p)
  | '=' :: _ =>
    if set.dialect.marks then (markedBody? '=' s).map fun p => (.mark, p) else none
  | _ => none

/-- What follows a comment, if the dialect knows comments. -/
def comment? (set : Setting) (s : List Char) : Option (List Char) :=
  if set.dialect.comments then afterComment? s else none

/-- A tag of the dialect. -/
def tag? (set : Setting) (before : Option Char) (s : Scan) (text : List Char) :
    Option (Scan × List Char) :=
  if set.dialect.tags && afterBlank before then
    (TagText.split? text).map fun p => (s.add (.tag p.1), p.2)
  else none

/-- A break at the end of a line. -/
def lineEnd? (s : Scan) (text : List Char) : Option (Scan × List Char) :=
  match hardBreak? text with
  | some rest => some (s.add .lineBreak, rest)
  | none => (softBreak? text).map fun rest => (s.add .softBreak, rest)

/-- Escaped marks, or a hard break after a backslash. -/
def escape? (s : Scan) (text : List Char) : Option (Scan × List Char) :=
  match escapeRun text with
  | ([], _) => (hardBreak? text).map fun rest => (s.add .lineBreak, rest)
  | (marks, rest) => some (s.add (.text marks), rest)

/-- A reference of the dialect, or a bracket that may open a link or an image. A text in the form of
a reference that names nothing opens neither. -/
def opening? (set : Setting) (s : Scan) (text : List Char) : Option (Scan × List Char) :=
  match if set.dialect.references then referenceSource? text else none with
  | some (source, rest) =>
    (referenceOf? source).map fun r => (s.add (.reference r), rest)
  | none =>
    match text with
    | '!' :: '[' :: r => some (s.openBracket true r, r)
    | '[' :: r => some (s.openBracket false r, r)
    | _ => none

/-- The label that a text between brackets is, if it can be one. -/
def labelOf? (text : List Char) : Option (List Char) :=
  match label? labelRoom (text ++ [']']) with
  | some (l, []) => some l
  | _ => none

/-- The destination of a link after its brackets, and the rest. -/
def linkTarget? (definitions : Definitions) (label : Option (List Char)) (rest : List Char) :
    Option (Destination × List Char) :=
  let defined (label : Option (List Char)) (rest : List Char) :=
    label.bind fun l => (definitions.lookup (labelKey l)).map fun d => (d, rest)
  match rest with
  | '(' :: t =>
    match inlineDestination? t with
    | some found => some found
    | none => defined label rest
  | '[' :: t =>
    match label? labelRoom t with
    | some (l, after) => defined (if l.isEmpty then label else some l) after
    | none => defined label rest
  | rest => defined label rest

/-- A closing bracket before the text `rest`. It makes a link or an image if a bracket is open and a
destination follows; otherwise both brackets are text. After a link no bracket before it opens
another one. -/
def closing (set : Setting) (room : Nat) (s : Scan) (rest : List Char) : Scan × List Char :=
  match s.brackets with
  | [] => (s.addText [']'], rest)
  | b :: bs =>
    let plain := ({ s with pieces := s.pieces ++ b.asText, brackets := bs }.addText [']'], rest)
    let between := b.source.take (b.source.length - (rest.length + 1))
    match
      if b.isImage || (b.free && !s.inAnchor) then
        linkTarget? set.definitions (labelOf? between) rest
      else none with
    | none => plain
    | some (target, after) =>
      let content := joinPieces (room - 1) s.pieces
      let item := if b.isImage then Inline.image target content else .link target content
      let outer := if b.isImage then bs else bs.map fun o => { o with free := false }
      if item.depth ≤ room then
        ({ s with pieces := .item item :: b.before, brackets := outer }, after)
      else plain

/-- What a rule recognizes at the start of a text; `inner` reads the text of a span that stands
alone. -/
def found? (set : Setting) (room : Nat) (inner : List Char → List Inline) (before : Option Char)
    (s : Scan) (text : List Char) : Option (Scan × List Char) :=
  match text with
  | [] => none
  | c :: cs =>
    if c == '\\' then escape? s text
    else if c == '\x60' then some (codeSpan s text)
    else if c == '~' || c == '=' then
      (marked? set text).map fun p => (s.add (.span p.1 (inner p.2.1)), p.2.2)
    else if c == '%' then (comment? set text).map fun rest => (s, rest)
    else if c == '[' || c == '!' then opening? set s text
    else if c == ']' then some (closing set room s cs)
    else if c == '#' then tag? set before s text
    else if c == '<' then angled? s text
    else lineEnd? s text

/-- Reads a text; `before` is the character before it, and `fuel` bounds the number of steps. -/
def scan (set : Setting) (room : Nat) (inner : Bool → List Char → List Inline) :
    (fuel : Nat) → (before : Option Char) → Scan → List Char → Scan
  | 0, _, s, text => s.addText text
  | _, _, s, [] => s
  | fuel + 1, before, s, c :: cs =>
    match found? set room (inner s.inAnchor) before s (c :: cs) with
    | some (next, rest) =>
      scan set room inner fuel (consumed (c :: cs) rest).getLast? next rest
    | none => scan set room inner fuel (some c) (s.addText [c]) cs

/-- The inline items of a text that stands alone, in which items nest at most `room` deep. -/
def inlineItems (set : Setting) : (room : Nat) → (inAnchor : Bool) → List Char → List Inline
  | 0, _, src => [.text src]
  | room + 1, inAnchor, src =>
    let s := scan set (room + 1) (inlineItems set room) src.length none (.start inAnchor) src
    joinPieces (room + 1) s.all

/-- The inline items of the text of a block. -/
def readInline (set : Setting) (src : List Char) : List Inline :=
  if src.isEmpty then [.text []] else inlineItems set mostNested false src

end NoteMarkup.Markdown
