import NoteMarkup.Stage.Declaration
import NoteMarkup.Text.Case

/-!
Small transformations beside the built-in ones, from which hosts put together stages of their own.
-/

namespace NoteMarkup.Transformation

/-- Keeps every node. -/
def identity : Transformation := ⟨"ObsidianTransform", fun _ _ n => pure (some n)⟩

/-- Puts every text into upper case. -/
def shout : Transformation :=
  ⟨"Shout", Visit.ofLeaf fun _ _ l info => pure <| some <|
    match l with
    | .text content => Node.ofText (String.ofList (Text.upper content.toList))
    | l => .leaf l info⟩

/-- Drops every text. -/
def dropText : Transformation :=
  ⟨"DropText", Visit.ofLeaf fun _ _ l info => pure <|
    match l with
    | .text _ => none
    | l => some (.leaf l info)⟩

/-- Drops the nodes of the dialect. -/
def dropDialect : Transformation :=
  ⟨"DropDialect", fun _ _ n => pure (if n.kind.isDialect then none else some n)⟩

/-- Fails on a document. -/
def fail : Transformation :=
  ⟨"Fail", fun _ _ n => if n.kind == .document then throw (.raised "boom") else pure (some n)⟩

/-- Puts a text in the place of a document. -/
def notDocument : Transformation :=
  ⟨"NotDocument", fun _ _ n => pure (some (if n.kind == .document then Node.ofText "x" else n))⟩

/-- Drops a document. -/
def dropDocument : Transformation :=
  ⟨"DropDocument", fun _ _ n => pure (if n.kind == .document then none else some n)⟩

/-- Puts a tag in the place of inline code. -/
def lateTag : Transformation :=
  ⟨"LateTag", Visit.ofLeaf fun _ _ l info => pure <| some <|
    match l with
    | .code content => .leaf (.tag content) []
    | l => .leaf l info⟩

/-- The transformations by the word that declarations use. -/
def named : List (String × Transformation) :=
  [("identity", identity), ("shout", shout), ("drop_text", dropText), ("drop_dialect", dropDialect),
   ("fail", fail), ("not_document", notDocument), ("drop_document", dropDocument),
   ("late_tag", lateTag)]

/-- What a word offers; a word without a transformation names some other class. -/
def offer (word : String) : Offer :=
  match named.lookup word with
  | some t => .transformation t
  | none => .other "dict"

end NoteMarkup.Transformation
