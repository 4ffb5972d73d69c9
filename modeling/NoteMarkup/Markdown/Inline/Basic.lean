import NoteMarkup.Markdown.Destination
import NoteMarkup.Markdown.Token
import NoteMarkup.Reference

/-!
What stands inside a paragraph: texts, breaks, code, spans of emphasis, links, images, raw markup,
and the references and tags of the dialect.
-/

namespace NoteMarkup.Markdown

/-- The spans that hold other inline items. -/
inductive SpanKind where
  | emphasis
  | strong
  | strikethrough
  | mark
deriving Repr, DecidableEq

/-- Whether the text of a span is read as a text of its own. -/
def SpanKind.standsAlone : SpanKind → Bool
  | .strikethrough | .mark => true
  | .emphasis | .strong => false

/-- The kind of token that a span becomes. -/
def SpanKind.token : SpanKind → String
  | .emphasis => "emphasis"
  | .strong => "strong"
  | .strikethrough => "strikethrough"
  | .mark => "mark"

/-- An inline item. -/
inductive Inline where
  | text (content : List Char)
  | softBreak
  | lineBreak
  | code (content : List Char)
  | markup (source : List Char)
  | span (kind : SpanKind) (content : List Inline)
  /-- An address between angle brackets: its source, where it points, and its text. -/
  | address (source : List Char) (target : Destination) (content : List Char)
  | link (target : Destination) (content : List Inline)
  | image (target : Destination) (content : List Inline)
  | reference (target : Reference)
  | tag (value : List Char)
deriving Inhabited

namespace Inline

/-- A text without characters. -/
def isEmptyText : Inline → Bool
  | .text [] => true
  | _ => false

mutual

/-- How deep an item nests others. -/
def depth : Inline → Nat
  | .span _ content | .link _ content | .image _ content => deepest content + 1
  | .address _ _ _ => 1
  | _ => 0

/-- How deep the deepest of some items nests others. -/
def deepest : List Inline → Nat
  | [] => 0
  | i :: rest => max i.depth (deepest rest)

end

end Inline

/-- The attributes of a link or an image. -/
def Destination.attrs (d : Destination) : Value :=
  .map ((.str "url", .str d.url) :: (d.title.map fun t => (Value.str "title", Value.str t)).toList)

/-- A text that may be absent, as a value. -/
def optionalText : Option String → Value
  | some s => .str s
  | none => .null

/-- The attributes of a reference. -/
def referenceAttrs (r : Reference) : Value :=
  .map [(.str "target", .str r.target), (.str "anchor", optionalText r.anchor),
    (.str "alias", optionalText r.label), (.str "embedded", .bool r.embedded)]

/-- The token of a link. -/
def linkToken (target : Destination) (children : List Token) : Token where
  kind := "link"
  attrs := some target.attrs
  children := children

mutual

/-- The token of an inline item. Inside a link an address is no link of its own, unless it is in a
text that stands alone. -/
def Inline.token (inLink : Bool) : Inline → Token
  | .text s => Token.ofText s
  | .softBreak => Token.ofRaw "softbreak" []
  | .lineBreak => Token.ofRaw "linebreak" []
  | .code s => Token.ofRaw "codespan" s
  | .markup s => Token.ofRaw "inline_html" s
  | .span k content =>
    Token.ofChildren k.token (Inline.tokens (inLink && !k.standsAlone) content)
  | .address source d s => if inLink then Token.ofText source else linkToken d [Token.ofText s]
  | .link d content => linkToken d (Inline.tokens true content)
  | .image d content =>
    { kind := "image", attrs := some d.attrs, children := Inline.tokens inLink content }
  | .reference r => { kind := "wikilink", attrs := some (referenceAttrs r) }
  | .tag v =>
    { kind := "obsidian_tag",
      attrs := some (.map [(.str "value", .str (String.ofList v))]) }

/-- The tokens of inline items. -/
def Inline.tokens (inLink : Bool) : List Inline → List Token
  | [] => []
  | i :: rest => i.token inLink :: Inline.tokens inLink rest

end

end NoteMarkup.Markdown
