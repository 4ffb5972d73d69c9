import NoteMarkup.Stage.Blocks
import NoteMarkup.Stage.Callouts
import NoteMarkup.Stage.Declaration
import NoteMarkup.Stage.Media
import NoteMarkup.Stage.RawMarkup

/-!
The stages that every registry starts with. References come first, so that later stages see the
links and images that they turn into.
-/

namespace NoteMarkup.Stage

def wikilinks : Stage where
  name := "wikilinks"
  description := "Resolve wikilinks and embeds into links, images and media markup"
  transformation := ⟨"WikilinkTransform", Links.visit⟩
  option := some .wikilinks
  priority := 30
  tags := ["links", "embeds"]

def highlights : Stage where
  name := "highlights"
  description := "Rewrite ==highlights== as highlight spans"
  transformation := ⟨"HighlightTransform", Highlights.visit⟩
  option := some .highlight
  priority := 40
  tags := ["inline"]

def tagLinks : Stage where
  name := "tags"
  description := "Turn #tags into tag index links and collect them"
  transformation := ⟨"TagTransform", Tags.visit⟩
  option := some .parseTags
  priority := 50
  tags := ["links", "metadata"]

def inlineHtml : Stage where
  name := "inline-html"
  description := "Apply wikilink, highlight and tag rewriting inside raw HTML"
  transformation := ⟨"InlineHtmlTransform", RawMarkup.visit⟩
  option := some .enableInHtmlEmbed
  priority := 60
  tags := ["html"]

def videoEmbeds : Stage where
  name := "video-embeds"
  description := "Render image references to video files as video elements"
  transformation := ⟨"VideoEmbedTransform", Media.visitVideo⟩
  option := some .enableVideoEmbed
  priority := 70
  tags := ["embeds", "media"]

def callouts : Stage where
  name := "callouts"
  description := "Restructure [!kind] block-quotes into collapsible callouts"
  transformation := ⟨"CalloutTransform", Callouts.visit⟩
  option := some .callouts
  priority := 80
  tags := ["blocks"]

def diagrams : Stage where
  name := "mermaid"
  description := "Tag mermaid code blocks for client-side diagram rendering"
  transformation := ⟨"MermaidTransform", Blocks.visitDiagram⟩
  option := some .mermaid
  priority := 90
  tags := ["blocks", "diagrams"]

def blockReferences : Stage where
  name := "block-references"
  description := "Turn trailing ^block-id markers into element ids"
  transformation := ⟨"BlockReferenceTransform", Blocks.visitMarker⟩
  option := some .parseBlockReferences
  priority := 100
  tags := ["blocks", "links"]

def playerEmbeds : Stage where
  name := "youtube-embeds"
  description := "Embed YouTube videos and playlists referenced with image syntax"
  transformation := ⟨"YouTubeEmbedTransform", Media.visitPlayer⟩
  option := some .enableYouTubeEmbed
  priority := 110
  tags := ["embeds", "media"]

def statusEmbeds : Stage where
  name := "tweet-embeds"
  description := "Embed tweets referenced with image syntax"
  transformation := ⟨"TweetEmbedTransform", Media.visitStatus⟩
  option := some .enableTweetEmbed
  priority := 120
  tags := ["embeds"]

def checkboxes : Stage where
  name := "checkbox"
  description := "Make task list checkboxes interactive"
  transformation := ⟨"CheckboxTransform", Blocks.visitTask⟩
  option := some .enableCheckbox
  priority := 130
  tags := ["lists"]

def appLinks : Stage where
  name := "obsidian-uri"
  description := "Mark obsidian:// links"
  transformation := ⟨"ObsidianUriTransform", Media.visitAppLink⟩
  option := some .enableObsidianUri
  priority := 140
  tags := ["links"]

/-- The built-in stages in the order in which they run. -/
def builtin : List Stage :=
  [wikilinks, highlights, tagLinks, inlineHtml, videoEmbeds, callouts, diagrams, blockReferences,
   playerEmbeds, statusEmbeds, checkboxes, appLinks]

/-- The built-in stage with a name. -/
def builtin? (name : String) : Option Stage := builtin.find? fun s => s.name == name

end NoteMarkup.Stage
