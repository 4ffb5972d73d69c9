import NoteMarkup.Fault
import NoteMarkup.Markdown.Token
import NoteMarkup.Text.Blank
import NoteMarkup.Text.Lines

/-!
The tree that tokens describe. Neighbouring texts and soft breaks make one text node, so that the
line grammars of the dialect see the lines of a paragraph. Tokens of an unknown kind are left out.
-/

namespace NoteMarkup.Node

open Markdown (Token)

/-- The attributes of a token as a map. -/
def tokenAttrs (t : Token) : Except Fault Record :=
  match t.attrs with
  | none => .ok []
  | some (.map r) => .ok r
  | some v => .error (.lacking "entries" v.typeName)

/-- The attributes of a token, none if they are not a map. -/
def tokenAttrsOrNone (t : Token) : Record :=
  match t.attrs with
  | some (.map r) => r
  | _ => []

/-- The attributes that a token cannot do without. -/
def neededAttrs (t : Token) : Except Fault Record :=
  match t.attrs with
  | none => .error (.noEntry "attrs")
  | some (.map r) => .ok r
  | some v => .error (.wrongType "attributes" v.typeName)

/-- A text attribute, if it is set. -/
def textAttr? (r : Record) (key : String) : Option String :=
  match r.get? (.str key) with
  | some (.str s) => some s
  | _ => none

/-- A text attribute that has to be set. -/
def neededText (r : Record) (key : String) : Except Fault String :=
  match r.get? (.str key) with
  | some (.str s) => .ok s
  | some v => .error (.wrongType key v.typeName)
  | none => .error (.noEntry key)

/-- Puts text in front of nodes; a text node at their start takes it. -/
def joinText (s : String) : List Node → List Node
  | .leaf (.text t) _ :: rest => .ofText (s ++ t) :: rest
  | rest => .ofText s :: rest

/-- The level of a heading token: the first unless a level from one to six is set. -/
def headingLevel (t : Token) : HeadingLevel :=
  match (tokenAttrsOrNone t).get? (.str "level") with
  | some (.int n) => (HeadingLevel.ofInt? n).getD .one
  | some (.bool true) => .truth
  | _ => .one

/-- A code block: the language is the first word of the information after the fence. -/
def codeBlock (t : Token) : Except Fault Node := do
  let attrs ← tokenAttrs t
  let words ← match attrs.get? (.str "info") with
    | some (.str s) => pure s
    | some v => if v.truthy then throw (.lacking "words" v.typeName) else pure ""
    | none => pure ""
  let about := Text.trim words.toList
  let language := (Text.words about).head?.map String.ofList
  let info : Record :=
    if about.isEmpty then [] else [(.str "info_string", .str (String.ofList about))]
  return .leaf (.codeBlock t.raw language) info

/-- A reference to a note from its attributes. -/
def referenceOfAttrs (r : Record) : Except Fault Reference := do
  let target ← neededText r "target"
  return ⟨target, textAttr? r "anchor", textAttr? r "alias",
    ((r.get? (.str "embedded")).map (·.truthy)).getD false⟩

/-- The alternative text of an image: the texts directly inside it. -/
def alternativeText (children : List Token) : String :=
  String.join ((children.filter fun c => c.kind == "text").map (·.raw))

mutual

/-- The node of an inline token that is no text; `none` for an unknown kind. -/
def ofInlineToken (t : Token) : Except Fault (Option Node) :=
  match t with
  | ⟨kind, raw, attrs, tight, children⟩ => do
    let token : Token := ⟨kind, raw, attrs, tight, children⟩
    let container (c : Container) : Except Fault (Option Node) := do
      let content ← ofInlineTokens children
      return some (.branch c content [])
    match kind with
    | "strong" => container .strong
    | "emphasis" => container .emphasis
    | "strikethrough" => container .strikethrough
    | "mark" => container .highlight
    | "codespan" => return some (.leaf (.code raw) [])
    | "link" => do
      let r ← tokenAttrs token
      container (.link ((textAttr? r "url").getD "") (textAttr? r "title"))
    | "image" => do
      let r ← tokenAttrs token
      return some (.leaf (.image ((textAttr? r "url").getD "") (alternativeText children)
        (textAttr? r "title")) [])
    | "linebreak" => return some (.leaf .lineBreak [])
    | "inline_html" => return some (.leaf (.htmlInline raw) [])
    | "wikilink" => do
      let r ← referenceOfAttrs (← neededAttrs token)
      return some (.leaf (.wikiLink r) [])
    | "obsidian_tag" => do
      let value ← neededText (← neededAttrs token) "value"
      return some (.leaf (.tag value) [])
    | _ => return none

/-- The inline nodes that tokens describe. -/
def ofInlineTokens (ts : List Token) : Except Fault (List Node) :=
  match ts with
  | [] => return []
  | t :: rest =>
    if t.isText then do
      let nodes ← ofInlineTokens rest
      return joinText t.runText nodes
    else do
      let node ← ofInlineToken t
      let nodes ← ofInlineTokens rest
      return node.toList ++ nodes

end

/-- The cells of a table row; tokens of other kinds are left out. -/
def tableCells : List Token → Except Fault (List Node)
  | [] => return []
  | t :: rest =>
    if t.kind == "table_cell" then do
      let attrs ← tokenAttrs t
      let content ← ofInlineTokens t.children
      let cells ← tableCells rest
      return .branch (.tableCell (textAttr? attrs "align")) content [] :: cells
    else tableCells rest

/-- The alignment of a cell. -/
def cellAlignment? : Node → Option String
  | .branch (.tableCell a) _ _ => a
  | _ => none

/-- The rows of the body of a table. -/
def tableRows : List Token → Except Fault (List Node)
  | [] => return []
  | t :: rest => do
    let cells ← tableCells t.children
    let rows ← tableRows rest
    return .branch (.tableRow false) cells [] :: rows

/-- Adds the parts of a table: the header gives the alignments. -/
def addTableParts (header : Option Node) (rows : List Node) (alignments : List (Option String)) :
    List Token → Except Fault Node
  | [] => return .table header rows alignments []
  | t :: rest =>
    if t.kind == "table_head" then do
      let cells ← tableCells t.children
      addTableParts (some (.branch (.tableRow true) cells [])) rows (cells.map cellAlignment?) rest
    else if t.kind == "table_body" then do
      let more ← tableRows t.children
      addTableParts header (rows ++ more) alignments rest
    else addTableParts header rows alignments rest

/-- The first number of a list: one unless another is set, zero counting as not set. -/
def listStart (r : Record) : Int :=
  match r.get? (.str "start") with
  | some v => if v.truthy then v.asInt?.getD 1 else 1
  | none => 1

/-- Whether a list is tight: the token says it, else its attributes, else it is. -/
def listTight (t : Token) (r : Record) : Bool :=
  match t.tight with
  | some b => b
  | none => ((r.get? (.str "tight")).map (·.truthy)).getD true

/-- Whether attributes of any type hold a key: as an entry, as an item, or as part of a text. -/
def mentions (key : String) : Value → Except Fault Bool
  | .map r => .ok (Record.has r (.str key))
  | .list xs => .ok (xs.any fun v => v.sameKey (.str key))
  | .str s => .ok (Text.holds key.toList s.toList)
  | v => .error (.wrongType "attributes" v.typeName)

/-- The state of a task item; an item that has no box has no state. -/
def taskMark? (t : Token) : Except Fault (Option TaskMark) := do
  let attrs := t.attrs.getD (.map [])
  let isTask ← if t.kind == "task_list_item" then pure true else mentions "checked" attrs
  if isTask then
    let checked := (← tokenAttrs t).get? (.str "checked")
    return some (if (checked.map (·.truthy)).getD false then .checked else .unchecked)
  else return none

mutual

/-- The node of a block token; `none` for blank lines and unknown kinds. -/
def ofBlockToken (t : Token) : Except Fault (Option Node) :=
  match t with
  | ⟨kind, raw, attrs, tight, children⟩ => do
    let token : Token := ⟨kind, raw, attrs, tight, children⟩
    match kind with
    | "heading" => do
      let content ← ofInlineTokens children
      return some (.branch (.heading (headingLevel token)) content [])
    | "paragraph" | "block_text" => do
      let content ← ofInlineTokens children
      return some (.paragraph content)
    | "block_code" => do
      let node ← codeBlock token
      return some node
    | "block_quote" => do
      let nodes ← ofBlockTokens children
      return some (.branch .blockQuote nodes [])
    | "list" => do
      let r := tokenAttrsOrNone token
      let items ← listItems children
      let ordered := ((r.get? (.str "ordered")).map (·.truthy)).getD false
      return some (.branch (.list ordered (listStart r) (listTight token r)) items [])
    | "table" => do
      let node ← addTableParts none [] [] children
      return some node
    | "thematic_break" => return some (.leaf .thematicBreak [])
    | "block_html" => return some (.leaf (.htmlBlock raw) [])
    | _ => return none

/-- The blocks that tokens describe. -/
def ofBlockTokens (ts : List Token) : Except Fault (List Node) :=
  match ts with
  | [] => return []
  | t :: rest => do
    let node ← ofBlockToken t
    let nodes ← ofBlockTokens rest
    return node.toList ++ nodes

/-- The items of a list. -/
def listItems (ts : List Token) : Except Fault (List Node) :=
  match ts with
  | [] => return []
  | ⟨kind, raw, attrs, tight, children⟩ :: rest => do
    let content ← ofBlockTokens children
    let mark ← taskMark? ⟨kind, raw, attrs, tight, children⟩
    let items ← listItems rest
    return .branch (.listItem mark) content [] :: items

end

end NoteMarkup.Node
