import NoteMarkup.Html.Escape
import NoteMarkup.Node.Attributes
import NoteMarkup.Stage.Basic
import NoteMarkup.TagText

/-!
Tags become links to the page of the tag and are recorded in the context. A number stays text, and
so does a tag inside a link, which cannot hold another link.
-/

namespace NoteMarkup.Stage.Tags

/-- Records the slug of a tag value and gives it. -/
def register (value : String) : StageM String := do
  let slug := Slug.ofTag value
  let context ← StageM.context
  if !context.tags.contains slug then
    StageM.modifyContext (·.addTag slug)
    StageM.debug "tags" ("Registered tag '" ++ slug ++ "' for " ++ context.slug)
  return slug

/-- The link to a tag's page as markup. -/
def linkMarkup (context : Context) (slug : String) : String :=
  "<a href=\"" ++ Html.escape (context.tagUrl slug) ++ "\" class=\"tag-link\">" ++ Html.escape slug
    ++ "</a>"

/-- The link to a tag's page as a node. -/
def linkNode (context : Context) (slug : String) : Node :=
  .branch (.link (context.tagUrl slug) none) [Node.ofText slug]
    [(Node.attrsKey, .map [(.str "class", .list [.str "tag-link"])])]

/-- The node for a tag. -/
def replace (inLink : Bool) (value : String) : StageM Node := do
  if inLink || TagText.isNumeric value then return Node.ofText ("#" ++ value)
  let slug ← register value
  return linkNode (← StageM.context) slug

/-- Replaces tags. -/
def visit : Visit :=
  Visit.ofLeaf fun _ inLink l info =>
    match l with
    | .tag value => some <$> replace inLink value
    | l => pure (some (.leaf l info))

end NoteMarkup.Stage.Tags
