import NoteMarkup.Html.Attributes
import NoteMarkup.Node.Attributes

/-!
Rendering of a tree as a fragment of markup.

A renderer writes to an output. The content of an element that has to be known before the element is
written is captured: the output is put aside and given back afterwards. A paragraph in an item of a
tight list stands without its element unless it has attributes to show. Whether it does depends on
the innermost list or quote around it, so the renderer keeps the ones that are open.

Rendering fails on information that gives no attributes and on rows and cells of another kind. A
failure leaves the renderer as it is then, in the middle of a captured content and with lists and
quotes open.
-/

namespace NoteMarkup.Html

/-- The attributes of an element: the ones that its kind gives, overridden by the node's own. -/
def nodeAttributes (base info : Record) : Except Fault String := do
  return attributes (base.merge (← Node.attrsOf info))

/-- An element around markup. -/
def element (name attrs content : String) : String :=
  "<" ++ name ++ attrs ++ ">" ++ content ++ "</" ++ name ++ ">"

/-- The key that makes the box of a task clickable. -/
def interactiveKey : Value := .str "checkbox_interactive"

/-- The box of a task. -/
def taskBox (mark : Option TaskMark) (info : Record) : String :=
  match mark with
  | none | some (.other "") => ""
  | some mark =>
    let state : Value × Value := (.str "checked", .bool (mark == .checked))
    let kind : Value × Value := (.str "type", .str "checkbox")
    let box : Record :=
      if ((info.get? interactiveKey).getD .null).truthy then
        [kind, (.str "class", .list [.str "checkbox-toggle"]), state]
      else [kind, (.str "disabled", .bool true), state]
    "<input" ++ attributes box ++ "> "

/-- The source of a reference. -/
def referenceSource (r : Reference) : String :=
  let part (mark : String) (p : Option String) :=
    match p with
    | some s => if s.isEmpty then "" else mark ++ s
    | none => ""
  (if r.embedded then "!" else "") ++ "[[" ++ r.target ++ part "#" r.anchor ++ part "|" r.label
    ++ "]]"

/-- A title attribute, unless the title is absent or empty. -/
def titleAttr (title : Option String) : Record :=
  match title with
  | some t => if t.isEmpty then [] else [(.str "title", .str t)]
  | none => []

/-- A leaf. -/
def renderLeaf (l : Leaf) (info : Record) : Except Fault String :=
  match l with
  | .text content => .ok (escape content)
  | .code content => .ok (element "code" "" (escape content))
  | .codeBlock content language => do
    let base : Record :=
      match language with
      | some l => if l.isEmpty then [] else [(.str "class", .list [.str ("language-" ++ l)])]
      | none => []
    return "<pre>" ++ element "code" (← nodeAttributes base info) (escape content) ++ "</pre>\n"
  | .thematicBreak => .ok "<hr>\n"
  | .htmlBlock content =>
    .ok (if content.isEmpty || content.endsWith "\n" then content else content ++ "\n")
  | .htmlInline content => .ok content
  | .image url alt title => do
    let base : Record := [(.str "src", .str url), (.str "alt", .str alt)] ++ titleAttr title
    return "<img" ++ (← nodeAttributes base info) ++ ">"
  | .lineBreak => .ok "<br>\n"
  | .wikiLink r => .ok (escape (referenceSource r))
  | .tag value => .ok (escape ("#" ++ value))

/-- The style of a cell: its own alignment, else that of its column. -/
def cellStyle (own column : Option String) : Record :=
  let chosen := match own with
    | some a => if a.isEmpty then column else own
    | none => column
  match chosen with
  | some a => if a.isEmpty then [] else [(.str "style", .str ("text-align: " ++ a))]
  | none => []

/-- What a renderer has written, and the tightness of each list and quote that is open, the innermost
first. -/
structure Renderer where
  output : String
  opened : List Bool
deriving Inhabited

/-- A renderer that has not been used. -/
def Renderer.new : Renderer := ⟨"", []⟩

/-- Whether the innermost list or quote is a tight list. -/
def Renderer.tight (r : Renderer) : Bool := r.opened.head?.getD false

/-- A step of rendering. -/
abbrev RenderM := ExceptT Fault (StateM Renderer)

namespace RenderM

/-- Writes markup. -/
def write (s : String) : RenderM Unit := modify fun r => { r with output := r.output ++ s }

/-- What a step writes, captured. -/
def captured (step : RenderM Unit) : RenderM String := do
  let before := (← get).output
  modify fun r => { r with output := "" }
  -- nothing gives the output back when this fails
  step
  let content := (← get).output
  modify fun r => { r with output := before }
  return content

/-- The part of a table that a step renders. -/
def part (name : String) (step : RenderM Unit) : RenderM Unit := do
  write ("<" ++ name ++ ">\n")
  step
  write ("</" ++ name ++ ">\n")

/-- The body of a table, unless it has no rows. -/
def body (rows : List Node) (step : RenderM Unit) : RenderM Unit :=
  if rows.isEmpty then pure () else part "tbody" step

/-- A step in a list or a quote. -/
def within (tight : Bool) (step : RenderM Unit) : RenderM Unit := do
  modify fun r => { r with opened := tight :: r.opened }
  -- nothing closes it when this fails
  step
  modify fun r => { r with opened := r.opened.tail }

mutual

/-- Renders a node. -/
def visit : Node → RenderM Unit
  | .leaf l info => do write (← ofExcept (renderLeaf l info))
  | .branch .document cs _ => visitAll cs
  | .branch (.heading level) cs info => do
    let content ← captured (visitAll cs)
    let attrs ← ofExcept (nodeAttributes [] info)
    write (element ("h" ++ level.text) attrs content ++ "\n")
  | .branch .paragraph cs info => do
    let content ← captured (visitAll cs)
    let attrs ← ofExcept (nodeAttributes [] info)
    if (← get).tight && attrs.isEmpty then write content
    else write (element "p" attrs content ++ "\n")
  | .branch .blockQuote cs info => do
    let name := match info.get? Node.tagKey with
      | some v => v.text
      | none => "blockquote"
    let attrs ← ofExcept (nodeAttributes [] info)
    write ("<" ++ name ++ attrs ++ ">\n")
    within false (visitAll cs)
    write ("</" ++ name ++ ">\n")
  | .branch (.list ordered start tight) cs info => do
    let name := if ordered then "ol" else "ul"
    let base : Record := if ordered && start != 1 then [(.str "start", .int start)] else []
    let attrs ← ofExcept (nodeAttributes base info)
    write ("<" ++ name ++ attrs ++ ">\n")
    within tight (visitAll cs)
    write ("</" ++ name ++ ">\n")
  | .branch (.listItem mark) cs info => do
    let attrs ← ofExcept (nodeAttributes [] info)
    write ("<li" ++ attrs ++ ">" ++ taskBox mark info)
    visitAll cs
    write "</li>\n"
  | .branch (.tableRow _) _ _ => pure ()
  | .branch (.tableCell _) _ _ => pure ()
  | .branch .emphasis cs _ => do write (element "em" "" (← captured (visitAll cs)))
  | .branch .strong cs _ => do write (element "strong" "" (← captured (visitAll cs)))
  | .branch .strikethrough cs _ => do write (element "del" "" (← captured (visitAll cs)))
  | .branch (.link url title) cs info => do
    let content ← captured (visitAll cs)
    let attrs ← ofExcept (nodeAttributes ((.str "href", .str url) :: titleAttr title) info)
    write (element "a" attrs content)
  | .branch .highlight cs _ => do write ("==" ++ (← captured (visitAll cs)) ++ "==")
  | .table none rows alignments info => do
    let attrs ← ofExcept (nodeAttributes [] info)
    write ("<table" ++ attrs ++ ">\n")
    body rows (visitRows "td" alignments rows)
    write "</table>\n"
  | .table (some header) rows alignments info => do
    let attrs ← ofExcept (nodeAttributes [] info)
    write ("<table" ++ attrs ++ ">\n")
    part "thead" (visitRow "th" alignments header)
    body rows (visitRows "td" alignments rows)
    write "</table>\n"

/-- Renders nodes one after the other. -/
def visitAll : List Node → RenderM Unit
  | [] => pure ()
  | n :: ns => do
    visit n
    visitAll ns

/-- Renders a row with cells of the given element. -/
def visitRow (cell : String) (alignments : List (Option String)) : Node → RenderM Unit
  | .branch (.tableRow _) cells _ => do
    write "<tr>"
    visitCells cell alignments cells
    write "</tr>\n"
  | n => do
    write "<tr>"
    throw (.missingPart "cells" n.kind)

/-- Renders rows one after the other. -/
def visitRows (cell : String) (alignments : List (Option String)) : List Node → RenderM Unit
  | [] => pure ()
  | r :: rs => do
    visitRow cell alignments r
    visitRows cell alignments rs

/-- Renders cells one after the other, each with the alignment of its column. -/
def visitCells (cell : String) : (alignments : List (Option String)) → List Node → RenderM Unit
  | _, [] => pure ()
  | alignments, .branch (.tableCell own) content info :: cs => do
    let inner ← captured (visitAll content)
    let attrs ← ofExcept (nodeAttributes (cellStyle own (alignments.head?.join)) info)
    write (element cell attrs inner)
    visitCells cell alignments.tail cs
  | _, n :: _ => throw (.missingPart "alignment" n.kind)

end

/-- A whole document. Nothing is written or open at its start. -/
def document (n : Node) : RenderM String := do
  modify fun r => { r with output := "" }
  modify fun r => { r with opened := [] }
  visit n
  return (← get).output

/-- Inline nodes, inside whatever is open. -/
def inline (ns : List Node) : RenderM String := do
  modify fun r => { r with output := "" }
  captured (visitAll ns)

end RenderM

/-- The outcome of a step and the renderer after it. -/
def Renderer.run {α : Type} (r : Renderer) (step : RenderM α) : Except Fault α × Renderer :=
  StateT.run (ExceptT.run step) r

/-- Renders a whole document. -/
def Renderer.document (r : Renderer) (n : Node) : Except Fault String × Renderer :=
  r.run (RenderM.document n)

/-- Renders inline nodes. -/
def Renderer.inline (r : Renderer) (ns : List Node) : Except Fault String × Renderer :=
  r.run (RenderM.inline ns)

/-- A document as markup. -/
def ofDocument (n : Node) : Except Fault String := (Renderer.new.document n).1

/-- Inline nodes as markup. -/
def ofInline (ns : List Node) : Except Fault String := (Renderer.new.inline ns).1

end NoteMarkup.Html
