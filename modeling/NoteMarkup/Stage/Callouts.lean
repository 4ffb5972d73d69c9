import NoteMarkup.Callout
import NoteMarkup.Html.Render
import NoteMarkup.Stage.Basic

/-!
Callouts. A block quote whose first line is a directive becomes a title block, a paragraph of the
remaining lines of its first paragraph, and a wrapper around its other children. The quote gets the
classes and attributes of the directive and remembers the directive, so that it is never taken for a
callout again.
-/

namespace NoteMarkup.Stage.Callouts

/-- The key of the directive. -/
def calloutKey : Value := .str "callout"

/-- The nodes of the title: what the directive line holds after the directive, or the kind. -/
def titleNodes (d : Callout.Directive) (siblings : List Node) : List Node :=
  if d.title.isEmpty then
    if siblings.isEmpty then [Node.ofText (Callout.defaultTitle d.kind)] else siblings
  else if siblings.isEmpty then [Node.ofText d.title]
  else Node.ofText (d.title ++ " ") :: siblings

/-- The first line of a text and what follows it. -/
def splitLine (s : String) : String × String :=
  match Text.cutAt '\n' s.toList with
  | some (line, rest) => (String.ofList line, String.ofList rest)
  | none => (s, "")

/-- What a block quote that opens a callout consists of. -/
structure Opening where
  directive : Callout.Directive
  /-- The lines of the first text after the directive line. -/
  remaining : String
  /-- The inline nodes after the first text. -/
  siblings : List Node
  /-- The blocks after the first paragraph. -/
  rest : List Node

/-- The opening of a callout, if children start with one. -/
def opening? : List Node → Option Opening
  | .branch .paragraph (.leaf (.text content) _ :: siblings) _ :: rest =>
    let (line, remaining) := splitLine content
    (Callout.parse? line).map fun d => ⟨d, remaining, siblings, rest⟩
  | _ => none

/-- The wrapper around the blocks after the first paragraph. -/
def wrapper (rest : List Node) : Node :=
  .branch .blockQuote rest
    [(Node.attrsKey, .map [(.str "class", .list [.str "callout-content"])]),
     (Node.tagKey, .str "div")]

/-- The children of a callout around its rendered title. -/
def body (o : Opening) (title : String) : List Node :=
  [Node.generatedBlock (Callout.titleMarkup ("<p>" ++ title ++ "</p>") o.directive.collapsible)]
    ++ (if o.remaining.isEmpty then [] else [Node.paragraph [Node.ofText o.remaining]])
    ++ (if o.rest.isEmpty then [] else [wrapper o.rest])

/-- Rebuilds the block quote of a callout. -/
def rebuild (o : Opening) (info : Record) : StageM Node := do
  let title ← StageM.ofExcept (Html.ofInline (titleNodes o.directive o.siblings))
  let context ← StageM.context
  StageM.debug "callouts" ("Callout '" ++ o.directive.kind ++ "' (from '" ++ o.directive.rawKind
    ++ "') in " ++ context.slug)
  let info := info.set calloutKey o.directive.toValue
  StageM.ofExcept ((Node.branch .blockQuote (body o title) info).withAttrs o.directive.attributes)

/-- Rebuilds block quotes that open a callout. -/
def visit : Visit
  | _, _, .branch .blockQuote cs info =>
    if info.has calloutKey then pure (some (.branch .blockQuote cs info))
    else match opening? cs with
      | some o => some <$> rebuild o info
      | none => pure (some (.branch .blockQuote cs info))
  | _, _, n => pure (some n)

end NoteMarkup.Stage.Callouts
