import NoteMarkup.BlockMarker
import NoteMarkup.Json.Quoted
import NoteMarkup.Html.Render
import NoteMarkup.Stage.Basic

/-!
Stages about single blocks: diagrams, tasks, and blocks that other notes can link to.

A marker at the end of a paragraph gives the paragraph an id. A paragraph that is nothing but a
marker gives its id to the block before it and disappears. An item of a list takes over the id of
its first paragraph.
-/

namespace NoteMarkup.Stage.Blocks

/-- Prepares code blocks of the diagram language for the diagram script. -/
def visitDiagram : Visit :=
  Visit.ofLeaf fun _ _ l info =>
    match l with
    | .codeBlock content (some "mermaid") => do
      StageM.modifyContext fun c => { c with hasDiagram := true }
      StageM.debug "mermaid" ("Mermaid diagram found in " ++ (← StageM.context).slug)
      let attrs : Record :=
        [(.str "class", .list [.str "mermaid"]),
         (.str "data-clipboard", .str (Json.quoted content))]
      some <$> StageM.ofExcept ((Node.leaf l info).withAttrs attrs)
    | l => pure (some (.leaf l info))

/-- Makes the boxes of tasks clickable. -/
def visitTask : Visit
  | _, _, .branch (.listItem (some mark)) cs info => do
    let item := Node.branch (.listItem (some mark)) cs (info.set Html.interactiveKey (.bool true))
    some <$> StageM.ofExcept (item.withAttrs [(.str "class", .list [.str "task-list-item"])])
  | _, _, n => pure (some n)

/-- The key under which a paragraph that is nothing but a marker holds the id. -/
def markerKey : Value := .str "block_reference"

/-- The name of the id attribute. -/
def idKey : Value := .str "id"

/-- Gives a block an id and records it. -/
def register (n : Node) (id : Value) : StageM Node := do
  if !id.isKey then throw (.wrongType "a key" id.typeName)
  let context ← StageM.context
  if (Entries.get? context.blocks id).isSome then
    StageM.debug "block_refs" ("Duplicate block id '" ++ id.text ++ "' in " ++ context.slug
      ++ ", last one wins")
  match n.withAttrs [(idKey, id)] with
  | .ok named =>
    StageM.modifyContext (·.setBlock id named)
    return named
  | .error e =>
    StageM.modifyContext (·.setBlock id n)
    throw e

/-- The paragraph with its marker read. -/
def markParagraph (content : List Node) (info : Record) : StageM Node := do
  let same := Node.branch .paragraph content info
  match content.getLast? with
  | some (.leaf (.text text) _) =>
    match BlockMarker.parse? text with
    | none => return same
    | some marker =>
      if marker.text.isEmpty && content.length == 1 then
        return .branch .paragraph content (info.set markerKey (.str marker.id))
      let last := if marker.text.isEmpty then [] else [Node.ofText marker.text]
      register (.branch .paragraph (content.dropLast ++ last) info) (.str marker.id)
  | _ => return same

/-- Gives the ids of paragraphs that are nothing but a marker to the blocks before them. The blocks
that are done stand in reverse. -/
def attach (done : List Node) : List Node → StageM (List Node)
  | [] => return done.reverse
  | n :: ns =>
    let plain := n.withInfo (n.info.erase markerKey)
    match (n.info.get? markerKey).getD .null, done with
    | .null, _ => attach (plain :: done) ns
    | _, [] => attach [plain] ns
    | id, last :: before => do
      let named ← register last id
      attach (named :: before) ns

/-- Moves the id of the first paragraph to the item. -/
def adoptId (mark : Option TaskMark) (children : List Node) (info : Record) : StageM Node := do
  let item := Node.branch (.listItem mark) children info
  match children with
  | .branch .paragraph content firstInfo :: rest =>
    let attrs ← StageM.ofExcept (Node.attrsOf firstInfo)
    match (attrs.get? idKey).getD .null with
    | .null => return item
    | id =>
      if !id.isKey then throw (.wrongType "a key" id.typeName)
      let first := Node.branch .paragraph content
        (firstInfo.set Node.attrsKey (.map (attrs.erase idKey)))
      StageM.modifyContext (·.eraseBlock id)
      register (.branch (.listItem mark) (first :: rest) info) id
  | _ => return item

/-- Turns markers into ids. -/
def visitMarker : Visit
  | _, _, .branch .paragraph content info => some <$> markParagraph content info
  | _, _, .branch .document cs info => do return some (.branch .document (← attach [] cs) info)
  | _, _, .branch .blockQuote cs info => do return some (.branch .blockQuote (← attach [] cs) info)
  | _, _, .branch (.listItem mark) cs info => do
    let cs ← attach [] cs
    some <$> adoptId mark cs info
  | _, _, n => pure (some n)

end NoteMarkup.Stage.Blocks
