import NoteMarkup.Proofs.ReferenceSyntax
import NoteMarkup.Proofs.SlugText
import NoteMarkup.Stage.Links

/-! Where a link leads. A slug holds no `#`, so the first one in the address of a note ends the slug and
starts the anchor. Where broken links are marked, a link to another note has an address exactly if the note
is known. A link to a place in its own note is looked up too, by the empty slug. -/

namespace NoteMarkup

namespace Context

variable {c : Context} {slug : String}

/-- No known note has the slug. -/
def Unknown (c : Context) (slug : String) : Prop := ∀ known, c.knownSlugs = some known → slug ∉ known

theorem slugExists_eq_false_iff : c.slugExists slug = false ↔ c.Unknown slug := by
  unfold slugExists Unknown
  cases c.knownSlugs with
  | none => simp
  | some known => simp

end Context

namespace Stage.Links

open Text

variable {target : String} {anchor : Option String} {c : Context} {o : Options} {r : LinkResolution}

/-- The slug of the note that a target names. The empty target names the note of the link and has no slug. -/
def slugOf (target : String) : String := if target = "" then "" else Slug.ofTarget target

/-- Unknown notes are marked, and no known note has the slug of the target. -/
def Suppressed (target : String) (c : Context) (o : Options) : Prop :=
  o.enabled .disableBrokenWikilinks = true ∧ c.Unknown (slugOf target)

/-- The part of an address that names a place in a note. -/
def placeOf (anchor : Option String) : List Char :=
  if anchor.getD "" = "" then [] else '#' :: (anchor.getD "").toList

/-- What a link can resolve to: an address of the web, no address, or that of a note. -/
inductive Resolves (target : String) (anchor : Option String) (c : Context) (o : Options) :
    LinkResolution → Prop
  | external {text : String} : MediaUrl.isExternal target = true →
      Resolves target anchor c o ⟨some target, text, true, false⟩
  | broken {text : String} : MediaUrl.isExternal target = false → Suppressed target c o →
      Resolves target anchor c o ⟨none, text, false, true⟩
  | note {text url : String} : MediaUrl.isExternal target = false → ¬Suppressed target c o →
      url.toList = (slugOf target).toList ++ placeOf anchor →
      Resolves target anchor c o ⟨some url, text, false, false⟩

theorem resolves (target : String) (anchor label : Option String) (c : Context) (o : Options) :
    Resolves target anchor c o (resolve target anchor label c o) := by
  have slug : (if target.isEmpty then "" else Slug.ofTarget target) = slugOf target := by
    simp [slugOf, String.isEmpty_iff]
  have suppressed : (o.enabled .disableBrokenWikilinks && !c.slugExists (slugOf target)) = true ↔
      Suppressed target c o := by
    rw [Bool.and_eq_true, Bool.not_eq_true', Context.slugExists_eq_false_iff]
    rfl
  unfold resolve
  rw [slug]
  split
  · next isExternal => exact .external isExternal
  · next isNote =>
      have isNote : MediaUrl.isExternal target = false := by simpa using isNote
      dsimp only
      split
      · next lost => exact .broken isNote (suppressed.mp lost)
      · next found =>
          refine .note isNote (mt suppressed.mpr found) ?_
          rw [String.toList_append]
          congr 1
          cases anchor with
          | none => rfl
          | some place => by_cases empty : place = "" <;> simp [placeOf, empty]

namespace Resolves

theorem url_none_iff (h : Resolves target anchor c o r) : r.url = none ↔ r.broken = true := by
  cases h <;> simp

theorem external_iff (h : Resolves target anchor c o r) :
    r.external = true ↔ MediaUrl.isExternal target = true := by
  cases h with
  | external isExternal => simp [isExternal]
  | broken isNote => simp [isNote]
  | note isNote => simp [isNote]

theorem url_of_external (h : Resolves target anchor c o r) (isExternal : r.external = true) :
    r.url = some target := by
  cases h with
  | external => rfl
  | broken => cases isExternal
  | note => cases isExternal

theorem url_of_note (h : Resolves target anchor c o r) (isNote : r.external = false)
    (found : r.broken = false) :
    ∃ url, r.url = some url ∧ url.toList = (slugOf target).toList ++ placeOf anchor := by
  cases h with
  | external => cases isNote
  | broken => cases found
  | note _ _ parts => exact ⟨_, rfl, parts⟩

theorem broken_iff_suppressed (h : Resolves target anchor c o r) :
    r.broken = true ↔ MediaUrl.isExternal target = false ∧ Suppressed target c o := by
  cases h with
  | external isExternal => simp [isExternal]
  | broken isNote lost => simp [isNote, lost]
  | note isNote found => simp [found]

end Resolves

theorem ne_mark_of_mem_slugOf {ch : Char} (h : ch ∈ (slugOf target).toList) : ch ≠ '#' := by
  unfold slugOf at h
  split at h
  · cases h
  · rintro rfl
    exact (Slug.isPlain_of_mem_page h).other (by decide)

/-- The first `#` of an address stands between the slug and the anchor. -/
theorem split_address {url : String} (parts : url.toList = (slugOf target).toList ++ placeOf anchor) :
    url.toList.takeWhile (· != '#') = (slugOf target).toList ∧
      (url.toList.dropWhile (· != '#')).tail = (anchor.getD "").toList ∧
      ('#' ∈ url.toList ↔ anchor.getD "" ≠ "") := by
  have inside : ∀ ch ∈ (slugOf target).toList, (ch != '#') = true := fun ch h =>
    bne_iff_ne.mpr (ne_mark_of_mem_slugOf h)
  have stop : ∀ ch, (placeOf anchor).head? = some ch → (ch != '#') = false := by
    intro ch head
    unfold placeOf at head
    split at head
    · cases head
    · obtain rfl := Option.some.inj head
      rfl
  have noMark : '#' ∉ (slugOf target).toList := fun h => ne_mark_of_mem_slugOf h rfl
  rw [parts, takeWhile_append_stop inside stop, dropWhile_append_stop inside stop, List.mem_append,
    or_iff_right noMark]
  refine ⟨rfl, ?_⟩
  unfold placeOf
  split
  · next none => simp [none]
  · next place => simp [place]

/-- A slug holds no blank and none of `&`, `%`, `?`, `#`. So the address of a note is its slug and, after the
first `#`, the anchor; an address of the web is the target itself; and only a broken link has none. -/
theorem address_parts (path : String) (dropExtension : Bool) (target : String)
    (anchor label : Option String) (c : Context) (o : Options) :
    (∀ ch ∈ (Slug.page path dropExtension).toList, Slug.IsPlain ch) ∧
      ((resolve target anchor label c o).url = none ↔
        (resolve target anchor label c o).broken = true) ∧
      ((resolve target anchor label c o).external = true ↔ MediaUrl.isExternal target = true) ∧
      ((resolve target anchor label c o).external = true →
        (resolve target anchor label c o).url = some target) ∧
      ((resolve target anchor label c o).external = false →
        (resolve target anchor label c o).broken = false →
        ∃ url, (resolve target anchor label c o).url = some url ∧
          url.toList.takeWhile (· != '#') = (slugOf target).toList ∧
          (url.toList.dropWhile (· != '#')).tail = (anchor.getD "").toList ∧
          ('#' ∈ url.toList ↔ anchor.getD "" ≠ "")) := by
  have resolved := resolves target anchor label c o
  refine ⟨fun ch member => Slug.isPlain_of_mem_page member, resolved.url_none_iff,
    resolved.external_iff, resolved.url_of_external, fun isNote found => ?_⟩
  obtain ⟨url, has, parts⟩ := resolved.url_of_note isNote found
  exact ⟨url, has, split_address parts⟩

/-- A path with marks that a slug cannot hold, and an anchor with the mark of an anchor in it. -/
theorem markedHeading_parts :
    ∃ url, (resolve "FAQ/Q&A #2?" (some "Why #1?") none (Context.new "index" none)
        Options.defaults).url = some url ∧
      url.toList.takeWhile (· != '#') = "FAQ/Q-and-A-2".toList ∧
      (url.toList.dropWhile (· != '#')).tail = "Why #1?".toList := by
  obtain ⟨-, -, -, -, note⟩ := address_parts "FAQ/Q&A #2?" false "FAQ/Q&A #2?" (some "Why #1?") none
    (Context.new "index" none) Options.defaults
  obtain ⟨url, has, slug, place, -⟩ := note (by decide) (by decide)
  exact ⟨url, has, slug.trans (by decide), place⟩

/-- The target names another note, and no known note has its slug. -/
structure LeadsAstray (target : String) (c : Context) : Prop where
  named : target ≠ ""
  isNote : MediaUrl.isExternal target = false
  unknown : c.Unknown (Slug.ofTarget target)

/-- The target names the note of the link, and no known note has the empty slug. -/
structure StaysUnlisted (target : String) (c : Context) : Prop where
  unnamed : target = ""
  unknown : c.Unknown ""

theorem suppressed_note_iff : MediaUrl.isExternal target = false ∧ Suppressed target c o ↔
    o.enabled .disableBrokenWikilinks = true ∧ (LeadsAstray target c ∨ StaysUnlisted target c) := by
  by_cases empty : target = ""
  · subst empty
    have slug : slugOf "" = "" := rfl
    have isNote : MediaUrl.isExternal "" = false := by decide
    constructor
    · rintro ⟨-, marked, unknown⟩
      exact ⟨marked, .inr ⟨rfl, unknown⟩⟩
    · rintro ⟨marked, astray | stays⟩
      · exact absurd rfl astray.named
      · exact ⟨isNote, marked, stays.unknown⟩
  · have slug : slugOf target = Slug.ofTarget target := if_neg empty
    constructor
    · rintro ⟨isNote, marked, unknown⟩
      exact ⟨marked, .inl ⟨empty, isNote, slug ▸ unknown⟩⟩
    · rintro ⟨marked, astray | stays⟩
      · exact ⟨astray.isNote, marked, slug.symm ▸ astray.unknown⟩
      · exact absurd stays.unnamed empty

/-- Where broken links are marked, a link is broken if it leads to another note that is not known, or to a
place in its own note while no known note has the empty slug. So the marks are for unknown notes alone exactly
if the link is none of the latter. -/
theorem marked_broken_iff (target : String) (anchor label : Option String) (c : Context) (o : Options) :
    ((resolve target anchor label c o).broken = true ↔
      o.enabled .disableBrokenWikilinks = true ∧ (LeadsAstray target c ∨ StaysUnlisted target c)) ∧
    (((resolve target anchor label c o).broken = true ↔
        o.enabled .disableBrokenWikilinks = true ∧ LeadsAstray target c) ↔
      ¬(o.enabled .disableBrokenWikilinks = true ∧ StaysUnlisted target c)) := by
  have decided := (resolves target anchor label c o).broken_iff_suppressed.trans suppressed_note_iff
  refine ⟨decided, ?_⟩
  rw [decided]
  constructor
  · rintro same ⟨marked, stays⟩
    exact (same.mp ⟨marked, .inr stays⟩).2.named stays.unnamed
  · intro other
    constructor
    · rintro ⟨marked, astray | stays⟩
      · exact ⟨marked, astray⟩
      · exact absurd ⟨marked, stays⟩ other
    · rintro ⟨marked, astray⟩
      exact ⟨marked, .inl astray⟩

/-- A link to a heading of its own note, among known notes. -/
theorem ownHeading_broken :
    Reference.parse? "[[#Section]]" = some ⟨"", some "Section", none, false⟩ ∧
      ¬((resolve "" (some "Section") none (Context.new "a" (some ["a"]))
          (Options.defaults.set .disableBrokenWikilinks true)).broken = true ↔
        (Options.defaults.set .disableBrokenWikilinks true).enabled .disableBrokenWikilinks = true ∧
          LeadsAstray "" (Context.new "a" (some ["a"]))) := by
  refine ⟨by decide, fun same => ?_⟩
  have broken : (resolve "" (some "Section") none (Context.new "a" (some ["a"]))
      (Options.defaults.set .disableBrokenWikilinks true)).broken = true := by decide
  exact (same.mp broken).2.named rfl

end Stage.Links

end NoteMarkup
