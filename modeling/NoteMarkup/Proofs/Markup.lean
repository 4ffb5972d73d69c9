import NoteMarkup.Proofs.Fragment
import NoteMarkup.Stage.Catalog

/-! Every piece of markup that a stage makes is a fragment, whatever texts it is made from. Each piece
is first written as elements with attributes. -/

namespace NoteMarkup

open Html

theorem Highlight.markup_eq (inner : String) :
    Highlight.markup inner = element "span" (Attrs.write [("class", some "text-highlight")]) inner := by
  unfold Highlight.markup
  apply String.ext
  simp [element, Attrs.write]

theorem Highlight.markup_fragment {inner : String} (h : Fragment inner) :
    Fragment (Highlight.markup inner) :=
  (Fragment.element "span" _ rfl rfl rfl h).of_eq (markup_eq inner)

theorem LinkResolution.toHtml_fragment (r : LinkResolution) : Fragment r.toHtml := by
  unfold LinkResolution.toHtml
  split
  · refine Fragment.of_eq (Fragment.element "a" [("class", some "internal broken")] rfl rfl rfl
      (.escaped r.text)) ?_
    apply String.ext
    simp [element, Attrs.write]
  · refine Fragment.of_eq (Fragment.element "a" [("href", some (escape (r.url.getD "")))] rfl rfl
      (Attrs.isSound_value rfl (isPlain_escape _) rfl) (.escaped r.text)) ?_
    apply String.ext
    simp [element, Attrs.write]

namespace Stage.Links

theorem mediaMarkup_eq (name url : String) : mediaMarkup name url =
    element name (Attrs.write [("src", some (escape url)), ("controls", none)]) "" := by
  unfold mediaMarkup
  apply String.ext
  simp [element, Attrs.write]

theorem isSound_mediaAttrs (url : String) :
    Attrs.isSound [("src", some (escape url)), ("controls", none)] = true :=
  Attrs.isSound_value rfl (isPlain_escape url) rfl

theorem mediaMarkup_fragment {name : String} (hn : isName name = true) (hv : isVoid name = false)
    (url : String) : Fragment (mediaMarkup name url) :=
  (Fragment.element name _ hn hv (isSound_mediaAttrs url) .empty).of_eq (mediaMarkup_eq name url)

theorem pdf_eq (url : String) : "<iframe src=\"" ++ escape url ++ "\" class=\"pdf\"></iframe>" =
    element "iframe" (Attrs.write [("src", some (escape url)), ("class", some "pdf")]) "" := by
  apply String.ext
  simp [element, Attrs.write]

theorem isSound_pdfAttrs (url : String) :
    Attrs.isSound [("src", some (escape url)), ("class", some "pdf")] = true :=
  Attrs.isSound_value rfl (isPlain_escape url) rfl

theorem pdf_fragment (url : String) :
    Fragment ("<iframe src=\"" ++ escape url ++ "\" class=\"pdf\"></iframe>") :=
  (Fragment.element "iframe" _ rfl rfl (isSound_pdfAttrs url) .empty).of_eq (pdf_eq url)

/-- The attributes of the quote and of the link in the placeholder of a transclusion. -/
def quoteAttrs (u b l : String) : Attrs :=
  [("class", some "transclude"), ("data-url", some u), ("data-block", some b),
    ("data-embed-alias", some l)]

def targetAttrs (u b : String) : Attrs := [("href", some (u ++ b)), ("class", some "transclude-inner")]

theorem transclude_eq (u b l : String) :
    "<blockquote class=\"transclude\" data-url=\"" ++ u ++ "\" data-block=\"" ++ b
      ++ "\" data-embed-alias=\"" ++ l ++ "\"><a href=\"" ++ u ++ b
      ++ "\" class=\"transclude-inner\">Transclude of " ++ u ++ b ++ "</a></blockquote>" =
    element "blockquote" (quoteAttrs u b l).write
      (element "a" (targetAttrs u b).write ("Transclude of " ++ u ++ b)) := by
  apply String.ext
  simp [element, Attrs.write, quoteAttrs, targetAttrs]

section Transclude

variable {u b l : String}

theorem isSound_quoteAttrs (hu : isPlain u = true) (hb : isPlain b = true) (hl : isPlain l = true) :
    (quoteAttrs u b l).isSound = true :=
  Attrs.isSound_value rfl rfl <| Attrs.isSound_value rfl hu <| Attrs.isSound_value rfl hb <|
    Attrs.isSound_value rfl hl rfl

theorem isSound_targetAttrs (hu : isPlain u = true) (hb : isPlain b = true) :
    (targetAttrs u b).isSound = true :=
  Attrs.isSound_value rfl (isPlain_append hu hb) rfl

theorem transclude_fragment (hu : isPlain u = true) (hb : isPlain b = true) (hl : isPlain l = true) :
    Fragment ("<blockquote class=\"transclude\" data-url=\"" ++ u ++ "\" data-block=\"" ++ b
      ++ "\" data-embed-alias=\"" ++ l ++ "\"><a href=\"" ++ u ++ b
      ++ "\" class=\"transclude-inner\">Transclude of " ++ u ++ b ++ "</a></blockquote>") := by
  have link := Fragment.element "a" _ rfl rfl (isSound_targetAttrs hu hb)
    (.append (.append (.text (s := "Transclude of ") rfl) (.text hu)) (.text hb))
  have quote := Fragment.element "blockquote" _ rfl rfl (isSound_quoteAttrs hu hb hl) link
  exact quote.of_eq (transclude_eq u b l)

end Transclude

theorem transcludeMarkup_fragment (url : String) (anchor label : Option String) :
    Fragment (transcludeMarkup url anchor label) :=
  transclude_fragment (isPlain_escape _) (isPlain_escape _) (isPlain_escape _)

end Stage.Links

namespace Callout

/-- An element of the title block, with its class. -/
def block (name content : String) : String :=
  element "div" (Attrs.write [("class", some name)]) content

theorem titleMarkup_eq (title : String) (collapsible : Bool) :
    titleMarkup ("<p>" ++ title ++ "</p>") collapsible =
      block "callout-title" (block "callout-icon" "" ++
        block "callout-title-inner" (element "p" "" title) ++
        if collapsible then block "fold-callout-icon" "" else "") := by
  unfold titleMarkup
  apply String.ext
  cases collapsible <;> simp [element, block, Attrs.write]

theorem titleMarkup_fragment {title : String} (h : Fragment title) (collapsible : Bool) :
    Fragment (titleMarkup ("<p>" ++ title ++ "</p>") collapsible) := by
  have div (name : String) {s : String} (hn : isPlain name = true) (hs : Fragment s) :
      Fragment (block name s) :=
    .element _ _ rfl rfl (Attrs.isSound_value rfl hn rfl) hs
  have paragraph : Fragment (element "p" (Attrs.write []) title) := .element _ _ rfl rfl rfl h
  have icon : Fragment (if collapsible then block "fold-callout-icon" "" else "") := by
    split
    · exact div _ rfl .empty
    · exact .empty
  have inside := ((div "callout-icon" rfl .empty).append
    (div "callout-title-inner" rfl paragraph)).append icon
  exact (div "callout-title" rfl inside).of_eq (titleMarkup_eq title collapsible)

end Callout

namespace MediaUrl

theorem videoMarkup_eq (url : String) : videoMarkup url =
    element "video" (Attrs.write [("controls", none), ("src", some (escape url))]) "" := by
  unfold videoMarkup
  apply String.ext
  simp [element, Attrs.write]

theorem isSound_videoAttrs (url : String) :
    Attrs.isSound [("controls", none), ("src", some (escape url))] = true :=
  Attrs.isSound_bare rfl (Attrs.isSound_value rfl (isPlain_escape url) rfl)

theorem videoMarkup_fragment (url : String) : Fragment (videoMarkup url) :=
  (Fragment.element "video" _ rfl rfl (isSound_videoAttrs url) .empty).of_eq (videoMarkup_eq url)

def playerRecord (embedUrl : String) : Record :=
  [(.str "class", .list [.str "external-embed", .str "youtube"]), (.str "allow", .str "fullscreen"),
    (.str "frameborder", .str "0"), (.str "width", .str "600px"), (.str "src", .str embedUrl)]

theorem nameable_playerRecord (embedUrl : String) : Nameable (playerRecord embedUrl) := by
  intro e he
  simp only [playerRecord, List.mem_cons, List.not_mem_nil, or_false] at he
  rcases he with rfl | rfl | rfl | rfl | rfl <;> exact ⟨_, rfl, rfl⟩

theorem playerMarkup_eq (embedUrl : String) :
    playerMarkup embedUrl = element "iframe" (attributes (playerRecord embedUrl)) "" := by
  unfold playerMarkup playerRecord
  apply String.ext
  simp [element]

theorem playerMarkup_fragment (embedUrl : String) : Fragment (playerMarkup embedUrl) :=
  (Fragment.element_of_attributed "iframe" rfl rfl
    (attributes_attributed (nameable_playerRecord embedUrl)) .empty).of_eq (playerMarkup_eq embedUrl)

theorem statusMarkup_eq (url : String) : statusMarkup url =
    element "blockquote" (Attrs.write [("class", some "twitter-tweet")])
      (element "a" (Attrs.write [("href", some (escape url))]) (escape url)) := by
  unfold statusMarkup
  apply String.ext
  simp [element, Attrs.write]

theorem isSound_statusAttrs (url : String) : Attrs.isSound [("href", some (escape url))] = true :=
  Attrs.isSound_value rfl (isPlain_escape url) rfl

theorem statusMarkup_fragment (url : String) : Fragment (statusMarkup url) := by
  have link := Fragment.element "a" _ rfl rfl (isSound_statusAttrs url) (.escaped url)
  exact (Fragment.element "blockquote" _ rfl rfl rfl link).of_eq (statusMarkup_eq url)

end MediaUrl

end NoteMarkup
