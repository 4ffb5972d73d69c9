import NoteMarkup.Stage.Highlights
import NoteMarkup.Stage.Links
import NoteMarkup.Stage.Tags

/-!
The dialect inside raw markup. Raw markup has no tree, so references, highlights and tags in it are
replaced in its text, in three passes. Embedded references stay as they are, and so does markup that
a stage made.
-/

namespace NoteMarkup.Stage.RawMarkup

/-- The text with the references that are not embedded replaced by anchors. -/
def resolveLinks (options : Options) (s : List Char) : StageM (List Char) := do
  let parts ← (Reference.pieces s).mapM fun
    | .gap cs => pure cs
    | .reference r source =>
      if r.embedded then pure source
      else do return (← Links.resolveM r.target r.anchor r.label options).toHtml.toList
  return parts.flatten

/-- The text with highlights replaced by spans. -/
def resolveHighlights (s : List Char) : List Char :=
  (Highlight.pieces s).flatMap fun
    | .gap c => [c]
    | .highlight content => (Highlight.markup (String.ofList content)).toList

/-- The text with tags replaced by links. Numbers stay. -/
def resolveTags (s : List Char) : StageM (List Char) := do
  let parts ← (TagText.pieces true s).mapM fun
    | .gap c => pure [c]
    | .tag value =>
      if TagText.isNumeric (String.ofList value) then pure ('#' :: value)
      else do
        let slug ← Tags.register (String.ofList value)
        return (Tags.linkMarkup (← StageM.context) slug).toList
  return parts.flatten

/-- The text with the dialect replaced, as far as the options ask for it. -/
def resolve (options : Options) (html : String) : StageM String := do
  let mut s := html.toList
  if options.enabled .wikilinks then s ← resolveLinks options s
  if options.enabled .highlight then s := resolveHighlights s
  if options.enabled .parseTags then s ← resolveTags s
  return String.ofList s

/-- Resolves the dialect in raw markup that no stage made. -/
def visit : Visit :=
  Visit.ofLeaf fun options _ l info =>
    match l with
    | .htmlBlock content =>
      if Node.isGenerated info then pure (some (.leaf l info))
      else do return some (.leaf (.htmlBlock (← resolve options content)) info)
    | .htmlInline content =>
      if Node.isGenerated info then pure (some (.leaf l info))
      else do return some (.leaf (.htmlInline (← resolve options content)) info)
    | l => pure (some (.leaf l info))

end NoteMarkup.Stage.RawMarkup
