import Mathlib.Data.List.DropRight
import NoteMarkup.Proofs.PathSlugs
import NoteMarkup.Stage.Links

/-! Links to a note by its name. The page of a note has the slug of the note's whole name. A link that
gives the name with the extension of the note's file has the same slug. A link that gives the name alone
is read as a path that may have an extension of its own, so it misses the page when what stands before
that extension is changed by itself. -/

namespace NoteMarkup

namespace Slug

open Text

variable {path stem e q x : List Char} {b : Bool}

/-! ### Slugs of paths with and without an extension -/

theorem pageChars_of_none (none : extension? (stripSlashes path) = none) :
    pageChars path b = renameIndex (slugPath (stripSlashes path)) := by
  rw [pageChars, none]

theorem pageChars_of_some (some : extension? (stripSlashes path) = some e) :
    pageChars path b =
      renameIndex (slugPath ((stripSlashes path).take ((stripSlashes path).length - e.length))) ++
        if b || pageExtensions.contains e then [] else e := by
  rw [pageChars, some]

theorem extension?_append (isExtension : IsExtension e) : extension? (stem ++ e) = some e :=
  extension?_eq_some_iff.mpr ⟨stem, [], (List.append_nil _).symm, isExtension, rfl⟩

theorem pageChars_extension (isExtension : IsExtension e) (split : stripSlashes path = stem ++ e) :
    pageChars path b =
      renameIndex (slugPath stem) ++ if b || pageExtensions.contains e then [] else e := by
  have found : extension? (stripSlashes path) = some e := by
    rw [split, extension?_append isExtension]
  rw [pageChars_of_some found, split]
  simp

/-- Before a line feed the extension is looked for, but it is cut off the end. -/
theorem pageChars_line (isExtension : IsExtension e)
    (split : stripSlashes path = stem ++ e ++ ['\n']) :
    pageChars path b =
      renameIndex (slugPath (stem ++ ['.'])) ++ if b || pageExtensions.contains e then [] else e := by
  have found : extension? (stripSlashes path) = some e :=
    extension?_eq_some_iff.mpr ⟨stem, ['\n'], split, isExtension, rfl⟩
  obtain @⟨name, -, -⟩ := isExtension
  have front : stem ++ '.' :: name ++ ['\n'] = (stem ++ ['.']) ++ (name ++ ['\n']) := by simp
  rw [pageChars_of_some found, split, front, List.take_left' (by simp; omega)]

/-- The file of a note has the slug of its name. -/
theorem pageChars_file (n : List Char) (b : Bool) :
    pageChars (n ++ ".md".toList) b = renameIndex (slugPath (dropFrontSlash n)) := by
  have isExtension : IsExtension ".md".toList :=
    isExtension_of_mem_pageExtensions List.mem_cons_self
  have split : stripSlashes (n ++ ".md".toList) = dropFrontSlash n ++ ".md".toList := by
    rw [stripSlashes_eq, dropFrontSlash_append (by decide),
      dropEndSlash_of_getLast (isExtension.getLast_ne (by decide) _)]
  have isPage : pageExtensions.contains ".md".toList = true := by decide
  rw [pageChars_extension isExtension split, isPage, Bool.or_true, if_pos rfl, List.append_nil]

theorem renameIndex_slugPath_extension (isExtension : IsExtension e) (stem : List Char) :
    renameIndex (slugPath (stem ++ e)) = slugSegment stem ++ e := by
  rw [slugPath_eq, slugSegment_append, slugSegment_eq_self isExtension.isPlain,
    dropEndSlash_of_getLast (isExtension.getLast_ne (by decide) _),
    renameIndex_of_not_isOwn (isExtension.not_isOwn _)]

theorem renameIndex_slugPath_slash (q : List Char) :
    renameIndex (slugPath (q ++ ['/'])) = renameIndex (slugSegment q) := by
  rw [slugPath_eq, slugSegment_append, slugSegment_slash]
  exact congrArg renameIndex (dropEndSlash_append_slash _)

/-- A slug that is changed when it stands for a path of its own. -/
def Unsettled (x : List Char) : Prop := x.getLast? = some '/' ∨ IsOwn x

theorem length_lt_of_unsettled (h : Unsettled x) :
    (renameIndex (dropEndSlash x)).length < x.length := by
  rcases h with slash | own
  · obtain ⟨y, rfl⟩ := List.getLast?_eq_some_iff.mp slash
    rw [dropEndSlash_append_slash]
    exact lt_of_le_of_lt (length_renameIndex_le y) (by simp)
  · by_cases slash : x.getLast? = some '/'
    · obtain ⟨y, rfl⟩ := List.getLast?_eq_some_iff.mp slash
      exact absurd own (not_isOwn_append (by decide) y)
    · rw [dropEndSlash_of_getLast slash]
      exact length_renameIndex_of_isOwn own

theorem length_renameIndex_dropEndSlash_le (x : List Char) :
    (renameIndex (dropEndSlash x)).length ≤ x.length :=
  (length_renameIndex_le _).trans (length_dropEndSlash_le x)

theorem settled_iff : renameIndex (dropEndSlash x) = x ↔ ¬Unsettled x := by
  constructor
  · intro same unsettled
    have shorter := length_lt_of_unsettled unsettled
    rw [same] at shorter
    exact lt_irrefl _ shorter
  · intro settled
    obtain ⟨noSlash, notOwn⟩ := not_or.mp settled
    rw [dropEndSlash_of_getLast noSlash, renameIndex_of_not_isOwn notOwn]

/-! ### Names whose links go astray -/

/-- Links to a note of this name miss its page. The name has no slash at its start. -/
inductive Astray : List Char → Prop where
  /-- A name that is that of a folder's own note but for an extension. -/
  | own {folder name ext : List Char} (inFolder : folder = [] ∨ ∃ f, folder = f ++ ['/'])
      (own : slugSegment name = "_index".toList) (isExtension : IsExtension ext) :
      Astray (folder ++ name ++ ext)
  /-- A name in a folder that is nothing but an extension. -/
  | noStem {folder name ext : List Char} (none : slugSegment name = [])
      (isExtension : IsExtension ext) : Astray (folder ++ '/' :: name ++ ext)
  | slash {path : List Char} (h : Astray path) : Astray (path ++ ['/'])
  /-- A folder without a name in another folder. -/
  | noName {folder name : List Char} (none : slugSegment name = []) :
      Astray (folder ++ '/' :: name ++ ['/'])
  /-- A folder with the extension of a page. -/
  | page {stem ext : List Char} (isPage : ext ∈ pageExtensions) : Astray (stem ++ ext ++ ['/'])
  /-- A folder with an extension that stands at the end of a line. -/
  | line {stem ext : List Char} (isExtension : IsExtension ext) :
      Astray (stem ++ ext ++ ['\n'] ++ ['/'])

theorem getLast_slugSegment_iff :
    (slugSegment stem).getLast? = some '/' ↔
      ∃ folder name, stem = folder ++ '/' :: name ∧ slugSegment name = [] := by
  rw [List.getLast?_eq_some_iff]
  constructor
  · rintro ⟨y, same⟩
    obtain ⟨folder, name, rfl, -, none⟩ := slugSegment_eq_append_slash.mp same
    exact ⟨folder, name, rfl, none⟩
  · rintro ⟨folder, name, rfl, none⟩
    exact ⟨slugSegment folder, slugSegment_eq_append_slash.mpr ⟨folder, name, rfl, rfl, none⟩⟩

theorem isOwn_slugSegment_iff :
    IsOwn (slugSegment stem) ↔
      ∃ folder name, stem = folder ++ name ∧ (folder = [] ∨ ∃ f, folder = f ++ ['/']) ∧
        slugSegment name = "_index".toList := by
  constructor
  · rintro (own | ⟨y, same⟩)
    · exact ⟨[], stem, rfl, .inl rfl, own⟩
    · obtain ⟨folder, name, rfl, -, own⟩ := slugSegment_eq_append_slash.mp same.symm
      exact ⟨folder ++ ['/'], name, by simp, .inr ⟨folder, rfl⟩, own⟩
  · rintro ⟨folder, name, rfl, rfl | ⟨f, rfl⟩, own⟩
    · exact .inl own
    · refine .inr ⟨slugSegment f, ?_⟩
      rw [slugSegment_append, slugSegment_append, own, List.append_assoc]
      rfl

theorem IsExtension.append_inj {ext s : List Char} (h : IsExtension e) (h' : IsExtension ext)
    (same : stem ++ e = s ++ ext) : stem = s ∧ e = ext := by
  have there : extension? (stem ++ e) = some ext := by rw [same, extension?_append h']
  obtain rfl : e = ext := Option.some.inj ((extension?_append h).symm.trans there)
  exact ⟨List.append_cancel_right same, rfl⟩

/-- With an extension at its end a name goes astray when what stands before is unsettled. -/
theorem astray_extension_iff (isExtension : IsExtension e) :
    Astray (stem ++ e) ↔ Unsettled (slugSegment stem) := by
  have last := isExtension.getLast_ne (c := '/') (by decide) stem
  rw [Unsettled, getLast_slugSegment_iff, isOwn_slugSegment_iff]
  constructor
  · intro h
    generalize whole : stem ++ e = path at h last
    cases h with
    | own inFolder own isExtension' =>
        obtain ⟨rfl, -⟩ := isExtension.append_inj isExtension' whole
        exact .inr ⟨_, _, rfl, inFolder, own⟩
    | noStem none isExtension' =>
        obtain ⟨rfl, -⟩ := isExtension.append_inj isExtension' whole
        exact .inl ⟨_, _, rfl, none⟩
    | slash => exact absurd List.getLast?_concat last
    | noName => exact absurd List.getLast?_concat last
    | page => exact absurd List.getLast?_concat last
    | line => exact absurd List.getLast?_concat last
  · rintro (⟨folder, name, rfl, none⟩ | ⟨folder, name, rfl, inFolder, own⟩)
    · exact .noStem none isExtension
    · exact .own inFolder own isExtension

/-- Without an extension only the name of a folder goes astray. -/
theorem slash_of_astray (h : Astray path) (none : extension? path = none) :
    path.getLast? = some '/' := by
  cases h with
  | @own folder name ext _ _ isExtension =>
      rw [extension?_append isExtension] at none
      cases none
  | @noStem folder name ext _ isExtension =>
      rw [extension?_append isExtension] at none
      cases none
  | slash => exact List.getLast?_concat
  | noName => exact List.getLast?_concat
  | page => exact List.getLast?_concat
  | line => exact List.getLast?_concat

theorem getLast_slugSegment_ne (isExtension : IsExtension e) :
    (slugSegment (stem ++ e)).getLast? ≠ some '/' := by
  rw [slugSegment_append, slugSegment_eq_self isExtension.isPlain]
  exact isExtension.getLast_ne (by decide) _

/-- With a slash at its end a name goes astray when it does without, or for how it ends. -/
theorem astray_slash_iff :
    Astray (q ++ ['/']) ↔ Astray q ∨ (slugSegment q).getLast? = some '/' ∨
      (∃ stem, ∃ ext ∈ pageExtensions, q = stem ++ ext) ∨
      ∃ stem ext, IsExtension ext ∧ q = stem ++ ext ++ ['\n'] := by
  constructor
  · intro h
    generalize whole : q ++ ['/'] = path at h
    have last : path.getLast? = some '/' := by rw [← whole, List.getLast?_concat]
    cases h with
    | own _ _ isExtension => exact absurd last (isExtension.getLast_ne (by decide) _)
    | noStem _ isExtension => exact absurd last (isExtension.getLast_ne (by decide) _)
    | slash h => exact .inl (List.append_cancel_right whole ▸ h)
    | noName none =>
        have slash := getLast_slugSegment_iff.mpr ⟨_, _, List.append_cancel_right whole, none⟩
        exact .inr (.inl slash)
    | page isPage => exact .inr (.inr (.inl ⟨_, _, isPage, List.append_cancel_right whole⟩))
    | line isExtension =>
        exact .inr (.inr (.inr ⟨_, _, isExtension, List.append_cancel_right whole⟩))
  · rintro (h | slash | ⟨stem, ext, isPage, rfl⟩ | ⟨stem, ext, isExtension, rfl⟩)
    · exact .slash h
    · obtain ⟨folder, name, rfl, none⟩ := getLast_slugSegment_iff.mp slash
      exact .noName none
    · exact .page isPage
    · exact .line isExtension

theorem astray_dottedFolder_iff (isExtension : IsExtension e) :
    Astray (stem ++ e ++ ['/']) ↔ e ∈ pageExtensions ∨ Unsettled (slugSegment stem) := by
  rw [astray_slash_iff, astray_extension_iff isExtension]
  constructor
  · rintro (unsettled | slash | ⟨s, ext, isPage, same⟩ | ⟨s, ext, -, same⟩)
    · exact .inr unsettled
    · exact absurd slash (getLast_slugSegment_ne isExtension)
    · obtain ⟨-, rfl⟩ := isExtension.append_inj (isExtension_of_mem_pageExtensions isPage) same
      exact .inl isPage
    · have last : (stem ++ e).getLast? = some '\n' := by rw [same, List.getLast?_concat]
      exact absurd last (isExtension.getLast_ne (by decide) _)
  · rintro (isPage | unsettled)
    · exact .inr (.inr (.inl ⟨_, _, isPage, rfl⟩))
    · exact .inl unsettled

theorem astray_plainFolder_iff (none : extension? q = none) :
    Astray (q ++ ['/']) ↔ (slugSegment q).getLast? = some '/' := by
  rw [astray_slash_iff]
  constructor
  · rintro (h | slash | ⟨stem, ext, isPage, rfl⟩ | ⟨stem, ext, isExtension, rfl⟩)
    · obtain ⟨r, rfl⟩ := List.getLast?_eq_some_iff.mp (slash_of_astray h none)
      exact getLast_slugSegment_iff.mpr ⟨r, [], rfl, rfl⟩
    · exact slash
    · rw [extension?_append (isExtension_of_mem_pageExtensions isPage)] at none
      cases none
    · rw [extension?_eq_some_iff.mpr ⟨_, _, rfl, isExtension, rfl⟩] at none
      cases none
  · exact fun slash => .inr (.inl slash)

/-! ### The slugs of a note and of the links to it -/

section Name

variable {n : List Char}

/-- A name that ends neither in a slash nor in a line feed. -/
theorem pageChars_name_iff (noSlash : (dropFrontSlash n).getLast? ≠ some '/')
    (noLine : (dropFrontSlash n).getLast? ≠ some '\n')
    (noPage : ∀ e ∈ pageExtensions, ¬e <:+ dropFrontSlash n) :
    pageChars n false = renameIndex (slugPath (dropFrontSlash n)) ↔ ¬Astray (dropFrontSlash n) := by
  have strip : stripSlashes n = dropFrontSlash n := by
    rw [stripSlashes_eq, dropEndSlash_of_getLast noSlash]
  generalize dropFrontSlash n = m at *
  cases found : extension? m with
  | none =>
      refine iff_of_true ?_ fun astray => noSlash (slash_of_astray astray found)
      rw [pageChars_of_none (by rw [strip, found]), strip]
  | some e =>
      obtain ⟨stem, rest, rfl, isExtension, ends⟩ := extension?_eq_some_iff.mp found
      rcases atTextEnd_iff.mp ends with rfl | rfl
      · rw [List.append_nil] at *
        have noPage : pageExtensions.contains e = false := by
          simpa using fun isPage => noPage e isPage (List.suffix_append _ _)
        rw [pageChars_extension isExtension strip, noPage, renameIndex_slugPath_extension isExtension,
          astray_extension_iff isExtension, slugPath_eq, ← settled_iff]
        simp
      · exact absurd List.getLast?_concat noLine

/-- A folder without an extension. -/
theorem pageChars_plainFolder_iff (strip : stripSlashes n = q) (none : extension? q = none) :
    pageChars n false = renameIndex (slugSegment q) ↔ ¬Astray (q ++ ['/']) := by
  rw [pageChars_of_none (by rw [strip, none]), strip, slugPath_eq, astray_plainFolder_iff none]
  constructor
  · intro same ends
    obtain ⟨y, split⟩ := List.getLast?_eq_some_iff.mp ends
    have notOwn := split ▸ not_isOwn_append (by decide) y
    rw [renameIndex_of_not_isOwn notOwn] at same
    exact settled_iff.mp same (.inl ends)
  · intro noSlash
    rw [dropEndSlash_of_getLast noSlash]

/-- A folder with an extension: one of a page is dropped from the link. -/
theorem pageChars_dottedFolder_iff (isExtension : IsExtension e)
    (strip : stripSlashes n = stem ++ e) :
    pageChars n false = renameIndex (slugSegment (stem ++ e)) ↔ ¬Astray (stem ++ e ++ ['/']) := by
  have whole : renameIndex (slugSegment (stem ++ e)) = slugSegment stem ++ e := by
    rw [slugSegment_append, slugSegment_eq_self isExtension.isPlain,
      renameIndex_of_not_isOwn (isExtension.not_isOwn _)]
  rw [whole, pageChars_extension isExtension strip, astray_dottedFolder_iff isExtension, slugPath_eq]
  by_cases isPage : e ∈ pageExtensions
  · refine iff_of_false (fun same => ?_) (fun h => h (.inl isPage))
    have dropped : (false || pageExtensions.contains e) = true := by simpa using isPage
    rw [if_pos dropped, List.append_nil] at same
    have longer := length_renameIndex_dropEndSlash_le (slugSegment stem)
    obtain ⟨-, -⟩ := isExtension
    simp [same] at longer
  · have noPage : pageExtensions.contains e = false := by simpa using isPage
    rw [noPage, or_iff_right isPage, ← settled_iff]
    simp

/-- A folder with an extension before a line feed: the link does not end in the dash for it. -/
theorem pageChars_brokenFolder_ne (isExtension : IsExtension e)
    (strip : stripSlashes n = stem ++ e ++ ['\n']) :
    pageChars n false ≠ renameIndex (slugSegment (stem ++ e ++ ['\n'])) := by
  intro same
  have whole : renameIndex (slugSegment (stem ++ e ++ ['\n'])) = slugSegment stem ++ e ++ ['-'] := by
    rw [slugSegment_append, slugSegment_append, slugSegment_eq_self isExtension.isPlain]
    exact renameIndex_of_not_isOwn (not_isOwn_append (by decide) _)
  have cut : renameIndex (slugPath (stem ++ ['.'])) = slugSegment stem ++ ['.'] := by
    have point : slugSegment ['.'] = ['.'] := by
      rw [slugSegment, List.flatMap_singleton, slugChar_of_isPlain (by decide)]
    have noSlash : (slugSegment stem ++ ['.']).getLast? ≠ some '/' := by simp
    rw [slugPath_eq, slugSegment_append, point, dropEndSlash_of_getLast noSlash,
      renameIndex_of_not_isOwn (not_isOwn_append (by decide) _)]
  rw [whole, pageChars_line isExtension strip, cut] at same
  have last := congrArg List.getLast? same
  rw [List.getLast?_concat] at last
  split at last
  · rw [List.append_nil, List.getLast?_concat] at last
    cases last
  · exact isExtension.getLast_ne (by decide) _ last

/-- A name that ends in a slash. -/
theorem pageChars_folder_iff (slash : dropFrontSlash n = q ++ ['/']) :
    pageChars n false = renameIndex (slugPath (q ++ ['/'])) ↔ ¬Astray (q ++ ['/']) := by
  have strip : stripSlashes n = q := by
    rw [stripSlashes_eq, slash, dropEndSlash_append_slash]
  rw [renameIndex_slugPath_slash]
  cases found : extension? q with
  | none => exact pageChars_plainFolder_iff strip found
  | some e =>
      obtain ⟨stem, rest, rfl, isExtension, ends⟩ := extension?_eq_some_iff.mp found
      rcases atTextEnd_iff.mp ends with rfl | rfl
      · rw [List.append_nil] at *
        exact pageChars_dottedFolder_iff isExtension strip
      · exact iff_of_false (pageChars_brokenFolder_ne isExtension strip)
          fun h => h (.line isExtension)

/-- The slug of a link to a name that is trimmed and has no extension of a page. -/
theorem pageChars_note_iff (noLine : n.getLast? ≠ some '\n') (noPage : ∀ e ∈ pageExtensions, ¬e <:+ n) :
    pageChars n false = renameIndex (slugPath (dropFrontSlash n)) ↔ ¬Astray (dropFrontSlash n) := by
  have later := dropFrontSlash_suffix n
  by_cases slash : (dropFrontSlash n).getLast? = some '/'
  · obtain ⟨q, split⟩ := List.getLast?_eq_some_iff.mp slash
    rw [split]
    exact pageChars_folder_iff split
  · refine pageChars_name_iff slash ?_ fun e isPage suffix => noPage e isPage (suffix.trans later)
    intro last
    obtain ⟨q, split⟩ := List.getLast?_eq_some_iff.mp last
    obtain ⟨front, whole⟩ := later
    rw [split, ← List.append_assoc] at whole
    exact noLine (by rw [← whole, List.getLast?_concat])

end Name

/-- A text that is trimmed does not end in a line feed. -/
theorem getLast_ne_of_trim {s : List Char} (trimmed : trim s = s) : s.getLast? ≠ some '\n' := by
  intro last
  have visible := List.rdropWhile_last_not isBlank (trimLeft s)
  change ∀ some : trim s ≠ [], ¬isBlank ((trim s).getLast some) = true at visible
  rw [trimmed] at visible
  obtain ⟨some, ends⟩ := List.mem_getLast?_eq_getLast last
  exact visible some (ends ▸ by decide)

/-- A link with the slug of a known note is not broken. -/
theorem broken_of_slugExists {target : String} {c : Context}
    (known : c.slugExists (ofTarget target) = true) (anchor label : Option String) (o : Options) :
    (Stage.Links.resolve target anchor label c o).broken = false := by
  have slug : (if target.isEmpty then "" else ofTarget target) = ofTarget target := by
    split
    · next empty =>
        rw [String.isEmpty_iff.mp empty]
        decide
    · rfl
  unfold Stage.Links.resolve
  split
  · rfl
  · simp only [slug, known, Bool.not_true, Bool.and_false, Bool.false_eq_true, if_false]

/-- The page of a note, and a link with the extension of its file, have one slug. A link by the name alone
has it too, unless the name goes astray. Links with the slug of a known note are not broken. -/
theorem note_slugs_agree {n : String} (trimmed : trim n.toList = n.toList)
    (noPage : ∀ ext ∈ pageExtensions, ¬ext <:+ n.toList) :
    page (n ++ ".md") true = ofTarget (n ++ ".md") ∧
      (ofTarget n = ofTarget (n ++ ".md") ↔ ¬Astray (dropFrontSlash n.toList)) ∧
      ∀ (c : Context) (o : Options) (anchor label : Option String),
        c.slugExists (page (n ++ ".md") true) = true →
        (Stage.Links.resolve (n ++ ".md") anchor label c o).broken = false ∧
          (¬Astray (dropFrontSlash n.toList) →
            (Stage.Links.resolve n anchor label c o).broken = false) := by
  have file (b : Bool) :
      page (n ++ ".md") b = String.ofList (renameIndex (slugPath (dropFrontSlash n.toList))) := by
    rw [page, String.toList_append, pageChars_file]
  have agree : ofTarget n = ofTarget (n ++ ".md") ↔ ¬Astray (dropFrontSlash n.toList) := by
    rw [← pageChars_note_iff (getLast_ne_of_trim trimmed) noPage, ofTarget, ofTarget, file, page,
      String.ofList_inj]
  have same : page (n ++ ".md") true = ofTarget (n ++ ".md") := (file true).trans (file false).symm
  refine ⟨same, agree, fun c o anchor label known => ?_⟩
  rw [same] at known
  refine ⟨broken_of_slugExists known anchor label o, fun sound => ?_⟩
  rw [← agree.mpr sound] at known
  exact broken_of_slugExists known anchor label o

theorem versionNote_found :
    trim "Notes/v1.2 & more".toList = "Notes/v1.2 & more".toList ∧
      (∀ ext ∈ pageExtensions, ¬ext <:+ "Notes/v1.2 & more".toList) ∧
      ofTarget "Notes/v1.2 & more" = page ("Notes/v1.2 & more" ++ ".md") true ∧
      (Stage.Links.resolve "Notes/v1.2 & more" none none
        (Context.new "index" (some ["Notes/v1.2--and--more"]))
        (Options.defaults.set .disableBrokenWikilinks true)).broken = false := by
  have trimmed : trim "Notes/v1.2 & more".toList = "Notes/v1.2 & more".toList := by decide +kernel
  have noPage : ∀ ext ∈ pageExtensions, ¬ext <:+ "Notes/v1.2 & more".toList := by decide +kernel
  obtain ⟨same, agree, known⟩ := note_slugs_agree trimmed noPage
  have slug : ofTarget "Notes/v1.2 & more" = ofTarget ("Notes/v1.2 & more" ++ ".md") := by
    decide +kernel
  refine ⟨trimmed, noPage, slug.trans same.symm, (known _ _ _ _ ?_).2 (agree.mp slug)⟩
  decide +kernel

/-- A link by the name of a note is broken although the note is known. -/
def Missed (n : String) : Prop :=
  trim n.toList = n.toList ∧ (∀ ext ∈ pageExtensions, ¬ext <:+ n.toList) ∧
    ofTarget n ≠ page (n ++ ".md") true ∧
    (Stage.Links.resolve n none none (Context.new "index" (some [page (n ++ ".md") true]))
      (Options.defaults.set .disableBrokenWikilinks true)).broken = true

/-- A note that is named like an extension, in a folder, and one that is named like the own note of its
folder but for a version. -/
theorem dottedNotes_missed : Missed "docs/.NET" ∧ Missed "docs/_index.v2" := by
  unfold Missed
  decide +kernel

end Slug

end NoteMarkup
