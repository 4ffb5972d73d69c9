import NoteMarkup.Highlight
import NoteMarkup.Html.Escape
import NoteMarkup.Node.Attributes
import NoteMarkup.Stage.Basic

/-!
Highlights become spans around the texts that they hold directly; other content is dropped.
-/

namespace NoteMarkup.Stage.Highlights

/-- The text of a node that is a text. -/
def ownText : Node → String
  | .leaf (.text content) _ => content
  | _ => ""

/-- The span for a highlight with the given content. -/
def replace (content : List Node) : Node :=
  Node.generatedInline
    (NoteMarkup.Highlight.markup (Html.escape (String.join (content.map ownText))))

/-- Replaces highlights. -/
def visit : Visit
  | _, _, .branch .highlight content _ => pure (some (replace content))
  | _, _, n => pure (some n)

end NoteMarkup.Stage.Highlights
