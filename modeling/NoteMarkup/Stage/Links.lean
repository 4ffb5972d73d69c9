import NoteMarkup.ImageLabel
import NoteMarkup.MediaUrl
import NoteMarkup.Node.Attributes
import NoteMarkup.Stage.Basic
import NoteMarkup.Text.Blank

/-!
Resolution of references. A reference without `!` becomes a link, or a mark for a broken link. An
embedded one becomes an image, a media element, or the placeholder of a transclusion, by the
extension of its target.
-/

namespace NoteMarkup

/-- What a reference resolves to. A broken link has no address. -/
structure LinkResolution where
  url : Option String
  text : String
  external : Bool
  broken : Bool
deriving Repr, DecidableEq, Inhabited

/-- The anchor element of a resolution. -/
def LinkResolution.toHtml (r : LinkResolution) : String :=
  if r.broken then "<a class=\"internal broken\">" ++ Html.escape r.text ++ "</a>"
  else "<a href=\"" ++ Html.escape (r.url.getD "") ++ "\">" ++ Html.escape r.text ++ "</a>"

namespace Stage.Links

/-- The first of the texts that is not empty. -/
def firstText (texts : List (Option String)) : String :=
  ((texts.filterMap id).find? fun t => !t.isEmpty).getD ""

/-- The resolution of a reference that is not embedded. -/
def resolve (target : String) (anchor label : Option String) (context : Context)
    (options : Options) : LinkResolution :=
  if MediaUrl.isExternal target then
    ⟨some target, firstText [label, some target], true, false⟩
  else
    let text := firstText [label, some target, anchor]
    let slug := if target.isEmpty then "" else Slug.ofTarget target
    if options.enabled .disableBrokenWikilinks && !context.slugExists slug then
      ⟨none, text, false, true⟩
    else
      let place := match anchor with
        | some a => if a.isEmpty then "" else "#" ++ a
        | none => ""
      ⟨some (slug ++ place), text, false, false⟩

/-- Resolves a reference for the note of the context. -/
def resolveM (target : String) (anchor label : Option String) (options : Options) :
    StageM LinkResolution := do
  let context ← StageM.context
  let r := resolve target anchor label context options
  if r.broken then
    StageM.debug "wikilinks" ("Broken wikilink to '" ++ target ++ "' in " ++ context.slug)
  return r

/-- A media element with controls. -/
def mediaMarkup (name url : String) : String :=
  "<" ++ name ++ " src=\"" ++ Html.escape url ++ "\" controls></" ++ name ++ ">"

/-- The placeholder of a transclusion. -/
def transcludeMarkup (url : String) (anchor label : Option String) : String :=
  let u := Html.escape url
  let block := Html.escape (match anchor with
    | some a => if a.isEmpty then "" else "#" ++ a
    | none => "")
  "<blockquote class=\"transclude\" data-url=\"" ++ u ++ "\" data-block=\"" ++ block
    ++ "\" data-embed-alias=\"" ++ Html.escape (label.getD "") ++ "\"><a href=\"" ++ u ++ block
    ++ "\" class=\"transclude-inner\">Transclude of " ++ u ++ block ++ "</a></blockquote>"

/-- What an embedded target is shown as. -/
inductive Medium where
  | image
  | video
  | audio
  | pdf
  | note
deriving Repr, DecidableEq

/-- Extensions of images. -/
def imageExtensions : List String := [".png", ".jpg", ".jpeg", ".gif", ".bmp", ".svg", ".webp"]

/-- Extensions of videos. -/
def videoExtensions : List String := [".mp4", ".webm", ".ogv", ".mov", ".mkv"]

/-- Extensions of sounds. One that is also an extension of videos is taken for a video. -/
def audioExtensions : List String := [".mp3", ".webm", ".wav", ".m4a", ".ogg", ".3gp", ".flac"]

/-- The medium of a target, by its extension in any case. -/
def medium (target : String) : Medium :=
  let ext := String.ofList (Text.lower ((Slug.fileExtension? target).getD "").toList)
  if imageExtensions.contains ext then .image
  else if videoExtensions.contains ext then .video
  else if audioExtensions.contains ext then .audio
  else if ext == ".pdf" then .pdf
  else .note

/-- The node for an embedded reference. -/
def embed (target : String) (anchor label : Option String) : StageM Node := do
  let url := Slug.ofTarget target
  match medium target with
  | .image =>
    let d := ImageLabel.parse (label.getD "")
    StageM.ofExcept <| (Node.leaf (.image url "" none) []).withAttrs
      [(.str "width", .str d.width), (.str "height", .str d.height), (.str "alt", .str d.alt)]
  | .video => return Node.generatedInline (mediaMarkup "video" url)
  | .audio => return Node.generatedInline (mediaMarkup "audio" url)
  | .pdf =>
    return Node.generatedInline
      ("<iframe src=\"" ++ Html.escape url ++ "\" class=\"pdf\"></iframe>")
  | .note =>
    StageM.debug "wikilinks" ("Transclude placeholder for '" ++ target ++ "'")
    return .leaf (.htmlInline (transcludeMarkup url anchor label))
      [(Node.generatedKey, .bool true), (.str "transclude", .bool true)]

/-- A trimmed text. -/
def trimText (s : String) : String := String.ofList (Text.trim s.toList)

/-- A trimmed part, absent if it is blank. -/
def trimPart (p : Option String) : Option String := p.bind fun s => Reference.part? s.toList

/-- The node for a resolution. -/
def linkNode (r : LinkResolution) : Node :=
  if r.broken then Node.generatedInline r.toHtml
  else .branch (.link (r.url.getD "") none) [Node.ofText r.text] []

/-- The node for a reference. -/
def replace (r : Reference) (options : Options) : StageM Node := do
  let target := trimText r.target
  let anchor := trimPart r.anchor
  let label := trimPart r.label
  if r.embedded then embed target anchor label
  else return linkNode (← resolveM target anchor label options)

/-- Replaces references. -/
def visit : Visit :=
  Visit.ofLeaf fun options _ l info =>
    match l with
    | .wikiLink r => some <$> replace r options
    | l => pure (some (.leaf l info))

end Stage.Links

end NoteMarkup
