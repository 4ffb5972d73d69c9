import NoteMarkup.Reference
import NoteMarkup.Value

/-!
The tree of a note. A node is a leaf, a container with a list of children, or a table, whose header
row stands apart from its body. Every node carries a record of further information, such as the
attributes that it is rendered with.

References, highlights and tags are the nodes of the note dialect. The stages replace them by nodes
that every renderer knows; one that is left renders as its source.
-/

namespace NoteMarkup

/-- The level of a heading, from one to six. A truth value counts as the first level and keeps its
word. -/
structure HeadingLevel where
  val : Nat
  inRange : 1 ≤ val ∧ val ≤ 6
  isTruth : Bool := false
deriving Repr, DecidableEq

/-- The level with a number, if there is one. -/
def HeadingLevel.ofInt? (n : Int) : Option HeadingLevel :=
  if h : 1 ≤ n.toNat ∧ n.toNat ≤ 6 then some ⟨n.toNat, h, false⟩ else none

/-- The top level. -/
def HeadingLevel.one : HeadingLevel := ⟨1, by decide, false⟩

/-- The level that a truth value gives. -/
def HeadingLevel.truth : HeadingLevel := ⟨1, by decide, true⟩

/-- The text of a level. -/
def HeadingLevel.text (l : HeadingLevel) : String := if l.isTruth then "True" else toString l.val

/-- The state of a task in a list. A mark of another kind makes an item a task without a box if it
is empty, and an open task if it is not. -/
inductive TaskMark where
  | checked
  | unchecked
  | other (text : String)
deriving Repr, DecidableEq

/-- The word for a state. -/
def TaskMark.text : TaskMark → String
  | .checked => "checked"
  | .unchecked => "unchecked"
  | .other t => t

/-- The state that a word gives. -/
def TaskMark.ofText (t : String) : TaskMark :=
  if t == "checked" then .checked else if t == "unchecked" then .unchecked else .other t

/-- A node without children. -/
inductive Leaf where
  | text (content : String)
  | code (content : String)
  | codeBlock (content : String) (language : Option String)
  | thematicBreak
  | htmlBlock (content : String)
  | htmlInline (content : String)
  | image (url alt : String) (title : Option String)
  | lineBreak
  | wikiLink (reference : Reference)
  | tag (value : String)
deriving Repr, DecidableEq

/-- What a node with a list of children is. -/
inductive Container where
  | document
  | heading (level : HeadingLevel)
  | paragraph
  | blockQuote
  | list (ordered : Bool) (start : Int) (tight : Bool)
  | listItem (mark : Option TaskMark)
  | tableRow (isHeader : Bool)
  | tableCell (alignment : Option String)
  | emphasis
  | strong
  | strikethrough
  | link (url : String) (title : Option String)
  | highlight
deriving Repr, DecidableEq

/-- A node of a note's tree. -/
inductive Node where
  | leaf (leaf : Leaf) (info : Record)
  | branch (container : Container) (children : List Node) (info : Record)
  | table (header : Option Node) (rows : List Node) (alignments : List (Option String))
      (info : Record)
deriving Repr

instance : Inhabited Node := ⟨.leaf .thematicBreak []⟩

/-- The kinds of nodes. -/
inductive Kind where
  | document | heading | paragraph | codeBlock | blockQuote | list | listItem | table | tableRow
  | tableCell | thematicBreak | htmlBlock | text | emphasis | strong | strikethrough | code | link
  | image | lineBreak | htmlInline | wikiLink | highlight | tag
deriving Repr, DecidableEq

namespace Kind

/-- Every kind: blocks, then inline nodes, then nodes of the dialect. -/
def all : List Kind :=
  [.document, .heading, .paragraph, .codeBlock, .blockQuote, .list, .listItem, .table, .tableRow,
   .tableCell, .thematicBreak, .htmlBlock, .text, .emphasis, .strong, .strikethrough, .code, .link,
   .image, .lineBreak, .htmlInline, .wikiLink, .highlight, .tag]

/-- The name of a kind, as messages give it. -/
def name : Kind → String
  | .document => "Document"
  | .heading => "Heading"
  | .paragraph => "Paragraph"
  | .codeBlock => "CodeBlock"
  | .blockQuote => "BlockQuote"
  | .list => "List"
  | .listItem => "ListItem"
  | .table => "Table"
  | .tableRow => "TableRow"
  | .tableCell => "TableCell"
  | .thematicBreak => "ThematicBreak"
  | .htmlBlock => "HTMLBlock"
  | .text => "Text"
  | .emphasis => "Emphasis"
  | .strong => "Strong"
  | .strikethrough => "Strikethrough"
  | .code => "Code"
  | .link => "Link"
  | .image => "Image"
  | .lineBreak => "LineBreak"
  | .htmlInline => "HTMLInline"
  | .wikiLink => "WikiLink"
  | .highlight => "Highlight"
  | .tag => "Tag"

/-- The kind with a name. -/
def ofName? (name : String) : Option Kind := all.find? fun k => k.name == name

/-- The kinds of the note dialect. -/
def isDialect : Kind → Bool
  | .wikiLink | .highlight | .tag => true
  | _ => false

end Kind

/-- The kind of a leaf. -/
def Leaf.kind : Leaf → Kind
  | .text _ => .text
  | .code _ => .code
  | .codeBlock _ _ => .codeBlock
  | .thematicBreak => .thematicBreak
  | .htmlBlock _ => .htmlBlock
  | .htmlInline _ => .htmlInline
  | .image _ _ _ => .image
  | .lineBreak => .lineBreak
  | .wikiLink _ => .wikiLink
  | .tag _ => .tag

/-- The kind of a container. -/
def Container.kind : Container → Kind
  | .document => .document
  | .heading _ => .heading
  | .paragraph => .paragraph
  | .blockQuote => .blockQuote
  | .list _ _ _ => .list
  | .listItem _ => .listItem
  | .tableRow _ => .tableRow
  | .tableCell _ => .tableCell
  | .emphasis => .emphasis
  | .strong => .strong
  | .strikethrough => .strikethrough
  | .link _ _ => .link
  | .highlight => .highlight

namespace Node

/-- The kind of a node. -/
def kind : Node → Kind
  | .leaf l _ => l.kind
  | .branch c _ _ => c.kind
  | .table _ _ _ _ => .table

/-- The further information on a node. -/
def info : Node → Record
  | .leaf _ i => i
  | .branch _ _ i => i
  | .table _ _ _ i => i

/-- The node with other information. -/
def withInfo (info : Record) : Node → Node
  | .leaf l _ => .leaf l info
  | .branch c cs _ => .branch c cs info
  | .table h rs al _ => .table h rs al info

/-- A text without further information. -/
def ofText (content : String) : Node := .leaf (.text content) []

/-- A paragraph without further information. -/
def paragraph (content : List Node) : Node := .branch .paragraph content []

/-- Whether the node is a header row. -/
def isHeaderRow : Node → Bool
  | .branch (.tableRow h) _ _ => h
  | _ => false

end Node

end NoteMarkup
