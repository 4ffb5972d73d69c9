import NoteMarkup.Html.Attributes
import NoteMarkup.Text.Case
import NoteMarkup.Text.Digit
import NoteMarkup.Text.Lines
import NoteMarkup.Text.Word

/-!
Addresses that are shown in a way of their own: pages of the web, video files, videos and playlists
of a player site, status messages, and links into the note application.

Schemes and hosts are compared without regard to case, the dotless and dotted forms of `i` and the
long `s` included.
-/

namespace NoteMarkup.MediaUrl

open Text

/-- The one-character lower case, by which case is disregarded. -/
def foldChar (c : Char) : Char :=
  if c.val < 128 then c.toLower
  else if c == 'İ' || c == 'ı' then 'i'
  else if c == 'ſ' then 's'
  else Char.ofNat (mapCase lowerRuns c.toNat)

/-- What follows `front`, which is in lower case, in a text that starts with it in any case. -/
def afterFolded? : (front : List Char) → List Char → Option (List Char)
  | [], s => some s
  | _ :: _, [] => none
  | f :: fs, c :: cs => if f == foldChar c then afterFolded? fs cs else none

/-- What follows the first of the fronts that starts the text. -/
def afterAny? (fronts : List String) (s : List Char) : Option (List Char) :=
  fronts.findSome? fun f => afterFolded? f.toList s

/-- What follows the scheme of a web address. -/
def afterWeb? (s : List Char) : Option (List Char) := afterAny? ["https://", "http://"] s

/-- An absolute address of the web. -/
def isExternal (url : String) : Bool := (afterWeb? url.toList).isSome

/-- The extensions of video files, in the case in which they are recognized. -/
def videoExtensions : List String :=
  ["mp4", "webm", "ogg", "avi", "mov", "flv", "wmv", "mkv", "mpg", "mpeg", "3gp", "m4v"]

/-- Whether a video extension starts here and ends the text. -/
def isVideoHere (s : List Char) : Bool :=
  videoExtensions.any fun e =>
    match afterFront? ('.' :: e.toList) s with
    | some rest => atTextEnd rest
    | none => false

/-- Whether a text ends in a video extension. -/
def isVideoChars : List Char → Bool
  | [] => false
  | c :: cs => isVideoHere (c :: cs) || isVideoChars cs

/-- The address of a video file. -/
def isVideo (url : String) : Bool := isVideoChars url.toList

/-- A link into the note application. -/
def isAppLink (url : String) : Bool :=
  (afterFront? "obsidian://".toList (lower url.toList)).isSome

/-- What follows the host of the player site. -/
def afterPlayerHost? (s : List Char) : Option (List Char) := do
  let r ← afterWeb? s
  let hosts := ["youtube.com/", "youtu.be/"]
  (((afterAny? ["www."] r).bind (afterAny? hosts)).orElse fun _ =>
    ((afterAny? ["m."] r).bind (afterAny? hosts)).orElse fun _ => afterAny? hosts r)

/-- What follows a mark before a video id: a path part or a query name. -/
def afterVideoMark? (s : List Char) : Option (List Char) :=
  let plain := ["youtu.be/", "v/", "embed/", "watch?v=", "&v="]
  (plain.findSome? fun m => afterFront? m.toList s).orElse fun _ =>
    match s with
    | 'u' :: '/' :: c :: '/' :: r => if isWord c then some r else none
    | _ => none

/-- A character of an id in a path or a query. -/
def isIdChar (c : Char) : Bool := c != '#' && c != '&' && c != '?'

/-- What follows the last mark before a video id on the first line. -/
def lastVideoMark? : List Char → Option (List Char)
  | [] => none
  | c :: cs =>
    match if c == '\n' then none else lastVideoMark? cs with
    | some r => some r
    | none => afterVideoMark? (c :: cs)

/-- The id of a video: eleven characters after the last mark. -/
def videoId? (s : List Char) : Option (List Char) := do
  let id := (← lastVideoMark? s).takeWhile isIdChar
  if id.length == 11 then some id else none

/-- The id of the first playlist that a query names. -/
def playlistId? : List Char → Option (List Char)
  | [] => none
  | c :: cs =>
    match if c == '?' || c == '&' then afterFront? "list=".toList cs else none with
    | some r => some (r.takeWhile isIdChar)
    | none => playlistId? cs

/-- The base of the addresses that the player is embedded with. -/
def embedBase : String := "https://www.youtube.com/embed/"

/-- The address with which a video or a playlist of the player site is embedded. -/
def playerEmbed? (url : String) : Option String := do
  let s := url.toList
  let _ ← afterPlayerHost? s
  let playlist := ((playlistId? s).filter fun p => !p.isEmpty).map String.ofList
  match videoId? s, playlist with
  | some v, some p => some (embedBase ++ String.ofList v ++ "?list=" ++ p)
  | some v, none => some (embedBase ++ String.ofList v)
  | none, some p => some (embedBase ++ "videoseries?list=" ++ p)
  | none, none => none

/-- Whether a name, then `/status/` and a digit start the text. -/
def isStatusPath (s : List Char) : Bool :=
  let name := s.takeWhile isWord
  !name.isEmpty && match afterAny? ["/status/"] (s.dropWhile isWord) with
    | some (c :: _) => isDigit c
    | _ => false

/-- The address of a status message. -/
def isStatus (url : String) : Bool :=
  match afterWeb? url.toList with
  | none => false
  | some r =>
    let hosts := ["twitter.com/", "x.com/"]
    match ((afterAny? ["www."] r).bind (afterAny? hosts)).orElse fun _ => afterAny? hosts r with
    | some path => isStatusPath path
    | none => false

/-- The video element for the address of a video file. -/
def videoMarkup (url : String) : String :=
  "<video controls src=\"" ++ Html.escape url ++ "\"></video>"

/-- The player element for an embedding address. -/
def playerMarkup (embedUrl : String) : String :=
  "<iframe" ++ Html.attributes
    [(.str "class", .list [.str "external-embed", .str "youtube"]),
     (.str "allow", .str "fullscreen"),
     (.str "frameborder", .str "0"), (.str "width", .str "600px"), (.str "src", .str embedUrl)]
    ++ "></iframe>"

/-- The quote that the widget script of the site turns into a status message. -/
def statusMarkup (url : String) : String :=
  let u := Html.escape url
  "<blockquote class=\"twitter-tweet\"><a href=\"" ++ u ++ "\">" ++ u ++ "</a></blockquote>"

end NoteMarkup.MediaUrl
