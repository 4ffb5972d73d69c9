import NoteMarkup.Markdown.Indent

/-!
Raw markup in a note: tags with attributes, comments, processing instructions, declarations and
character data. A reader gives the text after the markup.
-/

namespace NoteMarkup.Markdown.Markup

open Text (isBlank afterFront?)

/-- A character of the name of a tag after its first. -/
def isTagNameChar (c : Char) : Bool := c.isAlphanum || c == '-'

/-- The name of a tag, and the rest. -/
def tagName? (s : List Char) : Option (List Char × List Char) :=
  match s with
  | c :: _ =>
    if c.isAlpha then some (s.takeWhile isTagNameChar, s.dropWhile isTagNameChar) else none
  | [] => none

/-- The first character of the name of an attribute. -/
def isAttributeStart (c : Char) : Bool := c.isAlpha || c == '_' || c == ':'

/-- A further character of the name of an attribute. -/
def isAttributeChar (c : Char) : Bool := isAttributeStart c || c.isDigit || c == '.' || c == '-'

/-- What follows blanks and the name of an attribute. -/
def attributeName? (s : List Char) : Option (List Char) :=
  match s with
  | c :: _ =>
    match s.dropWhile isBlank with
    | d :: rest =>
      if isBlank c && isAttributeStart d then some (rest.dropWhile isAttributeChar) else none
    | [] => none
  | [] => none

/-- A character of a value without quotes. -/
def isBareValueChar (c : Char) : Bool :=
  c != ' ' && c != '!' && c != '"' && c != '\'' && c != '=' && c != '<' && c != '>' && c != '\x60'

/-- The rests after the values without quotes that start here, the longest value first. -/
def bareValueRests (s : List Char) : List (List Char) :=
  let n := (s.takeWhile isBareValueChar).length
  (List.range n).reverse.map fun k => s.drop (k + 1)

/-- The rests after the values that start here. -/
def valueRestsHere (s : List Char) : List (List Char) :=
  match s with
  | '\'' :: r => (Text.cutAt '\'' r).toList.map (·.2)
  | '"' :: r => (Text.cutAt '"' r).toList.map (·.2)
  | r => bareValueRests r

/-- The rests after an equals sign and a value; the blanks before the value come off first. -/
def valueRests (s : List Char) : List (List Char) :=
  match s.dropWhile isBlank with
  | '=' :: r =>
    let n := (r.takeWhile isBlank).length
    (List.range (n + 1)).reverse.flatMap fun k => valueRestsHere (r.drop k)
  | _ => []

/-- Reads attributes, then what `next` reads. As many attributes as possible are taken and each
value is as long as possible; `fuel` bounds their number. -/
def attributesThen (next : List Char → Option (List Char)) : (fuel : Nat) → List Char →
    Option (List Char)
  | 0, s => next s
  | n + 1, s =>
    match attributeName? s with
    | none => next s
    | some r =>
      ((valueRests r).findSome? fun v => attributesThen next n v) <|> attributesThen next n r
        <|> next s

/-- The end of an opening tag inside a line: blanks, perhaps a slash, and the bracket. -/
def openEnd? (s : List Char) : Option (List Char) :=
  match s.dropWhile isBlank with
  | '>' :: rest => some rest
  | '/' :: '>' :: rest => some rest
  | _ => none

/-- The end of a tag that ends its line. -/
def lineTagEnd? (s : List Char) : Option (List Char) :=
  match s.dropWhile isGap with
  | '>' :: rest =>
    match rest.dropWhile isGap with
    | [] => some []
    | '\n' :: rest => some rest
    | _ => none
  | _ => none

/-- An opening tag. -/
def openTag? (s : List Char) : Option (List Char) :=
  match s with
  | '<' :: r => (tagName? r).bind fun p => attributesThen openEnd? p.2.length p.2
  | _ => none

/-- A closing tag. -/
def closeTag? (s : List Char) : Option (List Char) :=
  match s with
  | '<' :: '/' :: r =>
    (tagName? r).bind fun p =>
      match p.2.dropWhile isBlank with
      | '>' :: rest => some rest
      | _ => none
  | _ => none

/-- What follows the first occurrence of a text. -/
def afterFirst? (mark : List Char) : List Char → Option (List Char)
  | [] => afterFront? mark []
  | c :: cs =>
    match afterFront? mark (c :: cs) with
    | some rest => some rest
    | none => afterFirst? mark cs

/-- A comment. -/
def comment? (s : List Char) : Option (List Char) :=
  match afterFront? ['<', '!', '-', '-'] s with
  | none => none
  | some ('>' :: rest) => some rest
  | some ('-' :: '>' :: rest) => some rest
  | some r => afterFirst? ['-', '-', '>'] r

/-- A processing instruction. -/
def instruction? (s : List Char) : Option (List Char) :=
  (afterFront? ['<', '?'] s).bind (afterFirst? ['?', '>'])

/-- A declaration: a name in capitals, a blank and anything up to the bracket. -/
def declaration? (s : List Char) : Option (List Char) :=
  match s with
  | '<' :: '!' :: c :: r =>
    if c.isUpper && ((r.dropWhile Char.isUpper).head?.map isBlank).getD false then
      afterFirst? ['>'] r
    else none
  | _ => none

/-- Character data. -/
def characterData? (s : List Char) : Option (List Char) :=
  (afterFront? ['<', '!', '[', 'C', 'D', 'A', 'T', 'A', '['] s).bind (afterFirst? [']', ']', '>'])

/-- Any markup inside a line. -/
def inline? (s : List Char) : Option (List Char) :=
  openTag? s <|> closeTag? s <|> comment? s <|> instruction? s <|> declaration? s <|>
    characterData? s

/-- Tags that hold blocks. -/
def blockTags : List String :=
  ["address", "article", "aside", "base", "basefont", "blockquote", "body", "caption", "center",
   "col", "colgroup", "dd", "details", "dialog", "dir", "div", "dl", "dt", "fieldset",
   "figcaption", "figure", "footer", "form", "frame", "frameset", "h1", "h2", "h3", "h4", "h5",
   "h6", "head", "header", "hr", "html", "iframe", "legend", "li", "link", "main", "menu",
   "menuitem", "meta", "nav", "noframes", "ol", "optgroup", "option", "p", "param", "section",
   "source", "summary", "table", "tbody", "td", "tfoot", "th", "thead", "title", "tr", "track",
   "ul"]

/-- Tags whose text is taken as it is. -/
def verbatimTags : List String := ["pre", "script", "style", "textarea"]

/-- How a block of markup begins. -/
inductive Opening where
  | comment
  | instruction
  | characterData
  | declaration
  | openTag (name : List Char)
  | closeTag (name : List Char)

/-- The beginning of a block of markup, and the text after it. -/
def opening? (s : List Char) : Option (Opening × List Char) :=
  match s with
  | '<' :: '!' :: '-' :: '-' :: r => some (.comment, r)
  | '<' :: '?' :: r => some (.instruction, r)
  | '<' :: '!' :: '[' :: 'C' :: 'D' :: 'A' :: 'T' :: 'A' :: '[' :: r => some (.characterData, r)
  | '<' :: '!' :: c :: r => if c.isUpper then some (.declaration, r) else none
  | '<' :: '/' :: r => (tagName? r).map fun p => (.closeTag p.1, p.2)
  | '<' :: r => (tagName? r).map fun p => (.openTag p.1, p.2)
  | _ => none

/-- Whether the name of a known tag ends here: at a gap or at the end of the line. -/
def endsTagName (s : List Char) : Bool :=
  match s with
  | [] => true
  | c :: _ => isGap c || c == '\n'

/-- Whether a beginning may break a quote or a list item: a tag has to be a known one in lower case
that does not end on the spot. -/
def breaks (s : List Char) : Bool :=
  match opening? s with
  | some (.openTag name, r) | some (.closeTag name, r) =>
    let known := blockTags ++ verbatimTags
    known.contains (String.ofList name) && endsTagName r
  | some _ => true
  | none => false

end NoteMarkup.Markdown.Markup
