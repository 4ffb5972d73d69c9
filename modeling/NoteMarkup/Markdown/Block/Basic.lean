import NoteMarkup.Markdown.Inline.Reader

/-!
The blocks of a note: headings, paragraphs, code, quotes, lists and tables. The texts of blocks are
read as inline items when the blocks become tokens, after all definitions of labels are known.
-/

namespace NoteMarkup.Markdown

/-- A cell of a table: its text and the alignment of its column. -/
structure Cell where
  text : List Char
  alignment : Option String
deriving Inhabited

/-- A block. -/
inductive Block where
  | blank
  | paragraph (text : List Char)
  | heading (level : Nat) (text : List Char)
  | code (source : List Char) (info : Option (List Char))
  | thematicBreak
  | markup (source : List Char)
  | quote (content : List Block)
  | list (start : Option Nat) (ordered tight : Bool) (items : List (List Block))
  | table (header : List Cell) (rows : List (List Cell))
deriving Inhabited

/-- A character that is dropped at the ends of the text of a block. -/
def isEdgeChar (c : Char) : Bool := c == ' ' || c == '\r' || c == '\n' || c == '\t' || c == '\x0c'

/-- The text of a block without what does not count at its ends. -/
def stripEdges (s : List Char) : List Char :=
  ((s.dropWhile isEdgeChar).reverse.dropWhile isEdgeChar).reverse

/-- The inline tokens of the text of a block. -/
def textTokens (set : Setting) (text : List Char) : List Token :=
  Inline.tokens false (readInline set (stripEdges text))

/-- The state of a task and the text after its box, if a text starts with a box. -/
def taskBox? (text : List Char) : Option (Bool × List Char) :=
  match text with
  | '[' :: c :: ']' :: b :: rest =>
    if (c == ' ' || c == 'x' || c == 'X') && Text.isBlank b then
      some (c != ' ', rest.dropWhile Text.isBlank)
    else none
  | _ => none

/-- The token of a cell. -/
def Cell.token (set : Setting) (c : Cell) : Token where
  kind := "table_cell"
  attrs := some (.map [(.str "align", optionalText c.alignment)])
  children := textTokens set c.text

/-- The token of a row. -/
def rowToken (set : Setting) (kind : String) (cells : List Cell) : Token :=
  Token.ofChildren kind (cells.map (·.token set))

/-- The token of a heading. -/
def headingToken (set : Setting) (level : Nat) (text : List Char) : Token where
  kind := "heading"
  attrs := some (.map [(.str "level", .int level)])
  children := textTokens set text

/-- The token of a paragraph. -/
def paragraphToken (set : Setting) (text : List Char) : Token :=
  Token.ofChildren "paragraph" (textTokens set text)

/-- The state of the task that the first block of a list item opens, if it is a paragraph, and the
token of the paragraph without the box. -/
def task? (set : Setting) : Block → Option (Bool × Token)
  | .paragraph text => (taskBox? text).map fun p => (p.1, paragraphToken set p.2)
  | _ => none

/-- The token of a code block. -/
def codeToken (source : List Char) (info : Option (List Char)) : Token where
  kind := "block_code"
  raw := String.ofList source
  attrs := info.map fun i => .map [(.str "info", .str (String.ofList i))]

/-- The attributes of a list: whether it is ordered, and the first number if it is not one. -/
def listAttrs (start : Option Nat) (ordered : Bool) : Value :=
  .map ((.str "ordered", .bool ordered) ::
    (start.map fun n => (Value.str "start", Value.int n)).toList)

mutual

/-- The token of a block. -/
def Block.token (set : Setting) : Block → Token
  | .blank => Token.ofRaw "blank_line" []
  | .paragraph text => paragraphToken set text
  | .heading level text => headingToken set level text
  | .code source info => codeToken source info
  | .thematicBreak => Token.ofRaw "thematic_break" []
  | .markup source => Token.ofRaw "block_html" source
  | .quote content => Token.ofChildren "block_quote" (Block.tokens set content)
  | .list start ordered tight items =>
    { kind := "list", attrs := some (listAttrs start ordered), tight := some tight,
      children := Block.itemTokens set items }
  | .table header rows =>
    Token.ofChildren "table"
      [rowToken set "table_head" header,
       Token.ofChildren "table_body" (rows.map (rowToken set "table_row"))]

/-- The tokens of blocks. -/
def Block.tokens (set : Setting) : List Block → List Token
  | [] => []
  | b :: rest => b.token set :: Block.tokens set rest

/-- The token of the item of a list; a box at its start makes it a task. -/
def Block.itemToken (set : Setting) : List Block → Token
  | [] => Token.ofChildren "list_item" []
  | b :: rest =>
    match task? set b with
    | some (checked, first) =>
      { kind := "task_list_item", attrs := some (.map [(.str "checked", .bool checked)]),
        children := first :: Block.tokens set rest }
    | none => Token.ofChildren "list_item" (b.token set :: Block.tokens set rest)

/-- The tokens of the items of a list. -/
def Block.itemTokens (set : Setting) : List (List Block) → List Token
  | [] => []
  | i :: rest => Block.itemToken set i :: Block.itemTokens set rest

end

end NoteMarkup.Markdown
