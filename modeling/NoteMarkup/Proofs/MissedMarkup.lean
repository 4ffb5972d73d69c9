import NoteMarkup.Proofs.Lines
import NoteMarkup.Proofs.Markup
import NoteMarkup.Proofs.ReadMarkup

/-! Tags that the media stages miss. No image of the player site or of a status message should be left
in the markup, and every link into the note application should have its class. Whether a text has a
tag that falls short of this is read off its opening tags, part by part. The markup that stages make
has none, but for the placeholder of a note whose address opens the application. -/

namespace NoteMarkup

open Html

namespace Html

/-- What an attribute of a tag says. -/
def attr? (as : Attrs) (name : String) : Option String :=
  ((as.find? fun a => a.1 == name).bind Prod.snd).map unescaped

/-- The classes that a text lists. -/
def classesIn (s : String) : List String := (Text.splitAtChar ' ' s.toList).map String.ofList

theorem classesIn_append (s t : String) : classesIn (s ++ " " ++ t) = classesIn s ++ classesIn t := by
  simp [classesIn, Text.splitAtChar_append]

theorem classesIn_of_not_mem {s : String} (h : ' ' ∉ s.toList) : classesIn s = [s] := by
  rw [classesIn, Text.splitAtChar_of_not_mem h, List.map_singleton, String.ofList_toList]

theorem mem_classesIn_intercalate {name : String} {names : List String} (h : name ∈ names)
    (single : ' ' ∉ name.toList) : name ∈ classesIn (" ".intercalate names) := by
  induction names with
  | nil => cases h
  | cons first names ih =>
      cases names with
      | nil =>
          rw [List.mem_singleton.mp h] at single
          rw [String.intercalate_singleton, classesIn_of_not_mem single]
          exact h
      | cons second names =>
          rw [String.intercalate_cons_cons, classesIn_append, List.mem_append]
          rcases List.mem_cons.mp h with rfl | later
          · exact .inl (by rw [classesIn_of_not_mem single]; exact List.mem_singleton.mpr rfl)
          · exact .inr (ih later)

/-- The address of something that is shown in a way of its own. -/
def isPlayed (url : String) : Bool := (MediaUrl.playerEmbed? url).isSome || MediaUrl.isStatus url

/-- An image that should be a player or a status message, or a link into the note application without
its class. -/
def isMissed (tag : String × Attrs) : Bool :=
  (tag.1 == "img" && (attr? tag.2 "src").any isPlayed) ||
  (tag.1 == "a" && (attr? tag.2 "href").any MediaUrl.isAppLink &&
    !(classesIn ((attr? tag.2 "class").getD "")).contains Stage.Media.appClass)

/-- Whether a text of markup has such a tag. -/
def missed (html : String) : Bool := (openings html.toList).any isMissed

/-- The text is a fragment, and whether it has such a tag. -/
structure Shows (b : Bool) (s : String) : Prop where
  fragment : Fragment s
  missed : missed s = b

section Shows

variable {b c : Bool} {s t name : String} {as : Attrs} {ps : List Part}

theorem missed_written (sound : ∀ p ∈ ps, p.isSound = true) :
    missed (written ps) = (ps.filterMap Part.opening?).any isMissed := by
  rw [missed, openings_written sound]

theorem isMissed_of_name (img : name ≠ "img") (a : name ≠ "a") (as : Attrs) :
    isMissed (name, as) = false := by
  simp [isMissed, img, a]

namespace Shows

theorem of_fragment (h : Fragment s) : Shows (Html.missed s) s := ⟨h, rfl⟩

theorem of_eq (h : Shows b s) (eq : t = s) : Shows b t := eq ▸ h

theorem text (h : isPlain s = true) : Shows false s := by
  refine ⟨.text h, ?_⟩
  have none := openings_append (not_mem_of_isPlainChars h).1 []
  rw [List.append_nil] at none
  rw [Html.missed, none]
  simp [openings]

theorem empty : Shows false "" := text rfl

theorem escaped (s : String) : Shows false (escape s) := text (isPlain_escape s)

theorem append (hs : Shows b s) (ht : Shows c t) : Shows (b || c) (s ++ t) := by
  refine ⟨hs.fragment.append ht.fragment, ?_⟩
  obtain ⟨ps, rfl, sound, -⟩ := hs.fragment
  obtain ⟨qs, rfl, sound', -⟩ := ht.fragment
  have both : ∀ p ∈ ps ++ qs, p.isSound = true := by
    intro p hp
    exact (List.mem_append.mp hp).elim (sound p) (sound' p)
  rw [← hs.missed, ← ht.missed, ← written_append, missed_written both, missed_written sound,
    missed_written sound', List.filterMap_append, List.any_append]

theorem void (name : String) (hn : isName name = true) (hv : isVoid name = true)
    (ha : as.isSound = true) : Shows (isMissed (name, as)) ("<" ++ name ++ as.write ++ ">") := by
  refine ⟨.void name as hn hv ha, ?_⟩
  have whole : "<" ++ name ++ as.write ++ ">" = written [.opening name as] := by
    simp [written, Part.write]
  rw [whole, missed_written (by simp [Part.isSound, hn, ha])]
  simp [Part.opening?]

theorem element (name : String) (hn : isName name = true) (hv : isVoid name = false)
    (ha : as.isSound = true) (hs : Shows b s) : Shows (isMissed (name, as) || b) (element name as.write s) := by
  refine ⟨.element name as hn hv ha hs.fragment, ?_⟩
  obtain ⟨ps, rfl, sound, -⟩ := hs.fragment
  have whole : Html.element name as.write (written ps) =
      written (.opening name as :: (ps ++ [.closing name])) := by
    simp [Html.element, written, written_append, Part.write, String.append_assoc]
  have parts : ∀ p ∈ Part.opening name as :: (ps ++ [.closing name]), p.isSound = true := by
    intro p hp
    simp only [List.mem_cons, List.mem_append, List.not_mem_nil, or_false] at hp
    rcases hp with rfl | inside | rfl
    · simp [Part.isSound, hn, ha]
    · exact sound p inside
    · exact hn
  rw [whole, missed_written parts, ← hs.missed, missed_written sound]
  simp [Part.opening?]

/-- An element that is neither an image nor a link shows what stands in it. -/
theorem around (name : String) (hn : isName name = true) (hv : isVoid name = false) (a : name ≠ "a")
    (ha : as.isSound = true) (hs : Shows b s) : Shows b (Html.element name as.write s) := by
  have img : name ≠ "img" := by
    rintro rfl
    exact absurd hv (by decide)
  have within := element name hn hv ha hs
  rwa [isMissed_of_name img a, Bool.false_or] at within

theorem line (h : Shows b s) : Shows b (s ++ "\n") := by
  have ended := h.append (text (s := "\n") rfl)
  rwa [Bool.or_false] at ended

end Shows

end Shows

/-- The text that a value gives an attribute, if it gives one. -/
def valueText? : Value → Option String
  | .null | .bool false | .list [] | .bool true => none
  | v => some (attributeText v)

theorem attr?_append {as : Attrs} {name : String} (other : ∀ a ∈ as, a.1 ≠ name) (bs : Attrs) :
    attr? (as ++ bs) name = attr? bs name := by
  have none : as.find? (fun a => a.1 == name) = none := by simpa using other
  rw [attr?, List.find?_append, none, Option.none_or, attr?]

theorem name_attrOf {name : String} {v : Value} {a : String × Option String} (h : a ∈ attrOf name v) :
    a.1 = name := by
  unfold attrOf at h
  split at h
  · cases h
  · cases h
  · cases h
  · rw [List.mem_singleton.mp h]
  · rw [List.mem_singleton.mp h]

theorem attr?_attrOf {name : String} {bs : Attrs} (v : Value) (later : attr? bs name = none) :
    attr? (attrOf name v ++ bs) name = valueText? v := by
  unfold attrOf
  split
  · exact later
  · exact later
  · exact later
  · simp [attr?, valueText?]
  · simp [attr?, valueText?, unescaped_escape, *]

/-- The attributes of an element are the entries of its record. -/
theorem attr?_attrList {r : Record} (named : r.Named) (distinct : Entries.Distinct r) (name : String) :
    attr? (attrList r) name = (r.get? (.str name)).bind valueText? := by
  induction r with
  | nil => rfl
  | cons e r ih =>
      obtain ⟨⟨key, hk⟩, named⟩ := List.forall_mem_cons.mp named
      obtain ⟨fresh, distinct⟩ := List.nodup_cons.mp distinct
      have later := ih named distinct
      have text : e.1.text = key := by rw [hk]; rfl
      rw [attrList, List.flatMap_cons, text, ← attrList, Record.get?, Entries.get?, hk]
      by_cases same : key = name
      · subst same
        have absent : Entries.get? r (.str key) = none := Entries.get?_of_fresh fun f hf again =>
          fresh (List.mem_map.mpr ⟨f, hf, again.trans hk.symm⟩)
        rw [Record.get?, absent] at later
        rw [if_pos (Value.sameKey_str_iff.mpr rfl), attr?_attrOf e.2 later]
        rfl
      · rw [if_neg (mt Value.sameKey_str_iff.mp (mt Value.str.inj same)), attr?_append, later]
        · rfl
        · intro a ha
          rwa [name_attrOf ha]

end Html

/-- The part of an address that an anchor gives. -/
def Reference.part (anchor : Option String) : String :=
  match anchor with
  | some a => if a.isEmpty then "" else "#" ++ a
  | none => ""

namespace MediaUrl

variable {c : Char} {s : List Char} {url : String}

theorem lowerChar_of_foldChar (h : foldChar c = 'h') (before after : List Char) :
    Text.lowerChar before c after = ['h'] := by
  unfold foldChar at h
  unfold Text.lowerChar
  split at h
  · next small => rw [if_pos small, h]
  · next large =>
      rw [if_neg large]
      split at h
      · exact absurd h (by decide)
      · next dotless =>
          have dotted : ¬ (c == 'İ') = true := fun same => dotless (by simp [same])
          split at h
          · exact absurd h (by decide)
          · have sigma : ¬ (c == 'Σ') = true := by
              intro same
              rw [beq_iff_eq.mp same] at h
              exact absurd h (by decide +kernel)
            rw [if_neg sigma, if_neg dotted, h]

theorem foldChar_of_afterWeb? (h : (afterWeb? s).isSome = true) :
    ∃ c t, s = c :: t ∧ foldChar c = 'h' := by
  cases s with
  | nil => cases h
  | cons c t =>
      refine ⟨c, t, rfl, ?_⟩
      by_contra other
      have front : ('h' == foldChar c) = false := by simpa using Ne.symm other
      have stops (fs : List Char) : afterFolded? ('h' :: fs) (c :: t) = none := by
        rw [afterFolded?, front]
        rfl
      have web : afterWeb? (c :: t) = none := by
        unfold afterWeb? afterAny?
        rw [List.findSome?_cons, List.findSome?_cons, List.findSome?_nil]
        have https : "https://".toList = 'h' :: "ttps://".toList := rfl
        have http : "http://".toList = 'h' :: "ttp://".toList := rfl
        rw [https, http, stops, stops]
      rw [web] at h
      cases h

/-- An address of the web does not open the note application. -/
theorem isAppLink_of_web (h : (afterWeb? url.toList).isSome = true) : isAppLink url = false := by
  obtain ⟨c, t, same, folded⟩ := foldChar_of_afterWeb? h
  have small := lowerChar_of_foldChar folded [] t
  rw [isAppLink, same, Text.lower, Text.lowerFrom, small]
  rfl

theorem isAppLink_of_point {t : List Char} (h : url.toList = '.' :: t) : isAppLink url = false := by
  have small : Text.lowerChar [] '.' t = ['.'] := rfl
  rw [isAppLink, h, Text.lower, Text.lowerFrom, small]
  rfl

/-- Pages of tags are not opened in the note application. -/
theorem isAppLink_tagUrl (c : Context) (slug : String) : isAppLink (c.tagUrl slug) = false := by
  have point : ∃ t, (Slug.toRoot c.slug).toList = '.' :: t := by
    unfold Slug.toRoot
    dsimp only
    generalize List.dropLast _ = folders
    split
    · exact ⟨[], rfl⟩
    · next some =>
        rcases folders with _ | ⟨first, _ | ⟨second, later⟩⟩
        · exact absurd rfl some
        · exact ⟨['.'], String.toList_ofList⟩
        · exact ⟨_, String.toList_ofList⟩
  obtain ⟨t, same⟩ := point
  refine isAppLink_of_point (t := t ++ "/tags/".toList ++ slug.toList) ?_
  simp [Context.tagUrl, Context.baseUrl, same]

theorem isAppLink_of_isStatus (h : isStatus url = true) : isAppLink url = false := by
  refine isAppLink_of_web ?_
  unfold isStatus at h
  split at h
  · cases h
  · next found => rw [found]; rfl

end MediaUrl

namespace Html

theorem escape_append (s t : String) : escape (s ++ t) = escape s ++ escape t := by
  apply String.ext
  simp [escape, escapeChars]

theorem isMissed_href {rest : Attrs} {url : String}
    (other : (classesIn ((attr? (("href", some (escape url)) :: rest) "class").getD "")).contains
      Stage.Media.appClass = false) :
    isMissed ("a", ("href", some (escape url)) :: rest) = MediaUrl.isAppLink url := by
  have address : attr? (("href", some (escape url)) :: rest) "href" = some url := by
    simp [attr?, unescaped_escape]
  rw [isMissed, other, address]
  simp

end Html

theorem Highlight.markup_shows {b : Bool} {inner : String} (h : Shows b inner) :
    Shows b (Highlight.markup inner) :=
  (Shows.around _ rfl rfl (by decide) rfl h).of_eq (markup_eq inner)

namespace Stage.Links

theorem mediaMarkup_shows {name : String} (hn : isName name = true) (hv : isVoid name = false)
    (a : name ≠ "a") (url : String) : Shows false (mediaMarkup name url) :=
  (Shows.around _ hn hv a (isSound_mediaAttrs url) .empty).of_eq (mediaMarkup_eq name url)

theorem pdf_shows (url : String) :
    Shows false ("<iframe src=\"" ++ escape url ++ "\" class=\"pdf\"></iframe>") :=
  (Shows.around _ rfl rfl (by decide) (isSound_pdfAttrs url) .empty).of_eq (pdf_eq url)

theorem transclude_shows {u b l : String} (hu : isPlain u = true) (hb : isPlain b = true)
    (hl : isPlain l = true) :
    Shows (isMissed ("a", targetAttrs u b))
      ("<blockquote class=\"transclude\" data-url=\"" ++ u ++ "\" data-block=\"" ++ b
        ++ "\" data-embed-alias=\"" ++ l ++ "\"><a href=\"" ++ u ++ b
        ++ "\" class=\"transclude-inner\">Transclude of " ++ u ++ b ++ "</a></blockquote>") := by
  have text := ((Shows.text (s := "Transclude of ") rfl).append (.text hu)).append (.text hb)
  have link := Shows.element "a" rfl rfl (isSound_targetAttrs hu hb) text
  have quote := Shows.around "blockquote" rfl rfl (by decide) (isSound_quoteAttrs hu hb hl) link
  rw [Bool.or_false, Bool.or_false, Bool.or_false] at quote
  exact quote.of_eq (transclude_eq u b l)

/-- The placeholder of a note links to its address, whatever that opens. -/
theorem transcludeMarkup_shows (url : String) (anchor label : Option String) :
    Shows (MediaUrl.isAppLink (url ++ Reference.part anchor)) (transcludeMarkup url anchor label) := by
  have link : isMissed ("a", targetAttrs (escape url) (escape (Reference.part anchor))) =
      MediaUrl.isAppLink (url ++ Reference.part anchor) := by
    rw [targetAttrs, ← escape_append, isMissed_href]
    simp [attr?]
    decide
  rw [← link]
  exact transclude_shows (isPlain_escape _) (isPlain_escape _) (isPlain_escape _)

end Stage.Links

theorem Callout.titleMarkup_shows {b : Bool} {title : String} (h : Shows b title) (collapsible : Bool) :
    Shows b (titleMarkup ("<p>" ++ title ++ "</p>") collapsible) := by
  have div (name : String) {b : Bool} {s : String} (hn : isPlain name = true) (hs : Shows b s) :
      Shows b (block name s) :=
    .around _ rfl rfl (by decide) (Attrs.isSound_value rfl hn rfl) hs
  have paragraph : Shows b (element "p" (Attrs.write []) title) := .around _ rfl rfl (by decide) rfl h
  have icon : Shows false (if collapsible then block "fold-callout-icon" "" else "") := by
    split
    · exact div _ rfl .empty
    · exact .empty
  have inside := ((div "callout-icon" rfl .empty).append
    (div "callout-title-inner" rfl paragraph)).append icon
  rw [Bool.false_or, Bool.or_false] at inside
  exact (div "callout-title" rfl inside).of_eq (titleMarkup_eq title collapsible)

namespace MediaUrl

theorem videoMarkup_shows (url : String) : Shows false (videoMarkup url) :=
  (Shows.around _ rfl rfl (by decide) (isSound_videoAttrs url) .empty).of_eq (videoMarkup_eq url)

theorem playerMarkup_shows (embedUrl : String) : Shows false (playerMarkup embedUrl) := by
  have frame := Shows.around "iframe" rfl rfl (by decide)
    (isSound_attrList (nameable_playerRecord embedUrl)) .empty
  rw [← attributes_eq_write] at frame
  exact frame.of_eq (playerMarkup_eq embedUrl)

theorem statusMarkup_shows {url : String} (h : isStatus url = true) : Shows false (statusMarkup url) := by
  have link := Shows.element "a" rfl rfl (isSound_statusAttrs url) (.escaped url)
  rw [isMissed_href rfl, isAppLink_of_isStatus h] at link
  exact (Shows.around _ rfl rfl (by decide) rfl link).of_eq (statusMarkup_eq url)

end MediaUrl

end NoteMarkup
