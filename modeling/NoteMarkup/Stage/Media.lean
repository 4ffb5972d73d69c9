import NoteMarkup.MediaUrl
import NoteMarkup.Node.Attributes
import NoteMarkup.Stage.Basic

/-!
Images whose address names something else: a video file, a video of the player site, a status
message. Links into the note application get a class.
-/

namespace NoteMarkup.Stage.Media

/-- Replaces images of video files. -/
def visitVideo : Visit :=
  Visit.ofLeaf fun _ _ l info =>
    match l with
    | .image url _ _ =>
      if MediaUrl.isVideo url then do
        StageM.debug "video" ("Image '" ++ url ++ "' reclassified as video")
        return some (Node.generatedInline (MediaUrl.videoMarkup url))
      else pure (some (.leaf l info))
    | l => pure (some (.leaf l info))

/-- Replaces images of the player site. -/
def visitPlayer : Visit :=
  Visit.ofLeaf fun _ _ l info =>
    match l with
    | .image url _ _ =>
      match MediaUrl.playerEmbed? url with
      | some embed => do
        StageM.debug "embeds" ("YouTube embed for '" ++ url ++ "'")
        return some (Node.generatedInline (MediaUrl.playerMarkup embed))
      | none => pure (some (.leaf l info))
    | l => pure (some (.leaf l info))

/-- Replaces images of status messages. -/
def visitStatus : Visit :=
  Visit.ofLeaf fun _ _ l info =>
    match l with
    | .image url _ _ =>
      if MediaUrl.isStatus url then do
        StageM.debug "embeds" ("Tweet embed for '" ++ url ++ "'")
        return some (Node.generatedInline (MediaUrl.statusMarkup url))
      else pure (some (.leaf l info))
    | l => pure (some (.leaf l info))

/-- The class of links into the note application. -/
def appClass : String := "obsidian-uri"

/-- The classes that attributes give an element. -/
def classesOf (attrs : Record) : Except Fault (List Value) :=
  match attrs.get? (.str "class") with
  | none => .ok []
  | some v =>
    match v.items? with
    | some items => .ok items
    | none => .error (.wrongType "a list of classes" v.typeName)

/-- The classes with the class of application links, at the end unless it is there. -/
def addAppClass (classes : List Value) : List Value :=
  if classes.any fun v => v.sameKey (.str appClass) then classes else classes ++ [.str appClass]

/-- Marks links into the note application. -/
def visitAppLink : Visit
  | _, _, .branch (.link url title) cs info =>
    let link := Node.branch (.link url title) cs info
    if MediaUrl.isAppLink url then do
      let classes ← StageM.ofExcept (do classesOf (← link.attrs))
      let new : Record := [(.str "class", .list (addAppClass classes))]
      return some (← StageM.ofExcept (link.withAttrs new))
    else pure (some link)
  | _, _, n => pure (some n)

end NoteMarkup.Stage.Media
