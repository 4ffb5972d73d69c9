import NoteMarkup.Proofs.LowerCase
import NoteMarkup.Proofs.PassInterference

/-! Raw markup whose text the passes give back. The markup that takes the place of a reference or a tag
holds no opening square bracket, so a pass that replaces a reference lowers the number of these
brackets for good. If the text comes back, nothing was replaced, nothing was recorded and nothing was
logged. -/

namespace NoteMarkup

namespace Slug

open Text

variable {c : Char} {s : List Char}

theorem bracket_of_mem_slugPath (h : '[' ∈ slugPath s) : '[' ∈ s := by
  rcases mem_joinWith (mem_of_mem_dropEndSlash h) with slash | ⟨part, member, inPart⟩
  · exact absurd slash (by decide)
  · obtain ⟨segment, ofPath, rfl⟩ := List.mem_map.mp member
    exact mem_of_mem_splitAtChar ofPath (mem_of_mem_slugSegment (by decide) inPart)

theorem bracket_of_mem_renameIndex (h : '[' ∈ renameIndex s) : '[' ∈ s := by
  unfold renameIndex at h
  dsimp only at h
  split at h
  · rcases List.mem_append.mp h with front | name
    · exact List.mem_of_mem_take front
    · exact absurd name (by decide)
  · exact h

theorem mem_of_mem_stripSlashes (h : c ∈ stripSlashes s) : c ∈ s := by
  unfold stripSlashes at h
  split at h
  · exact List.mem_cons_of_mem _ (mem_of_mem_dropEndSlash h)
  · exact mem_of_mem_dropEndSlash h

theorem mem_of_mem_extension {ext : List Char} (h : extension? s = some ext) (hc : c ∈ ext) : c ∈ s := by
  induction s with
  | nil => cases h
  | cons d s ih =>
      rw [extension?] at h
      cases here : extensionHere? (d :: s) with
      | none => exact List.mem_cons_of_mem _ (ih (by rwa [here] at h))
      | some found =>
          rw [here] at h
          cases h
          unfold extensionHere? at here
          split at here
          · next rest same =>
              dsimp only at here
              obtain ⟨rfl, rfl⟩ := List.cons.inj same
              split at here
              · cases here
                exact List.cons_subset_cons _ (List.takeWhile_prefix _).subset hc
              · cases here
          · cases here

/-- A page slug has an opening bracket only if the path has one. -/
theorem bracket_of_mem_pageChars {path : List Char} {dropExtension : Bool}
    (h : '[' ∈ pageChars path dropExtension) : '[' ∈ path := by
  refine mem_of_mem_stripSlashes ?_
  unfold pageChars at h
  dsimp only at h
  split at h
  · exact bracket_of_mem_slugPath (bracket_of_mem_renameIndex h)
  · next ext found =>
      rcases List.mem_append.mp h with stem | kept
      · exact List.mem_of_mem_take (bracket_of_mem_slugPath (bracket_of_mem_renameIndex stem))
      · split at kept
        · cases kept
        · exact mem_of_mem_extension found kept

theorem bracket_of_mem_tagChars {value : List Char} (h : '[' ∈ tagChars value) : '[' ∈ value := by
  rcases mem_joinWith h with slash | ⟨part, member, inPart⟩
  · exact absurd slash (by decide)
  · obtain ⟨segment, ofValue, rfl⟩ := List.mem_map.mp member
    have inSegment := mem_of_mem_lower (by decide +kernel) inPart
    exact mem_of_mem_splitAtChar ofValue (mem_of_mem_slugSegment (by decide) inSegment)

theorem bracket_not_mem_toRoot (slug : String) : '[' ∉ (toRoot slug).toList := by
  unfold toRoot
  dsimp only
  split
  · decide
  · rw [String.toList_ofList]
    intro h
    rcases mem_joinWith h with slash | ⟨part, member, inPart⟩
    · exact absurd slash (by decide)
    · obtain ⟨-, -, rfl⟩ := List.mem_map.mp member
      exact absurd inPart (by decide)

end Slug

theorem Html.bracket_of_mem_escapeChars {s : List Char} (h : '[' ∈ Html.escapeChars s) : '[' ∈ s := by
  obtain ⟨c, hc, inside⟩ := List.mem_flatMap.mp h
  rcases Html.escapeChar_eq c with same | listed
  · rw [same, List.mem_singleton] at inside
    exact inside ▸ hc
  · exact absurd inside ((by decide : ∀ e ∈ Html.escapes, '[' ∉ e) _ listed)

namespace Reference

variable {src : Source}

theorem Source.WellFormed.bracket_not_mem (h : src.WellFormed) : '[' ∉ src.body := fun bracket =>
  (h.ne_bracket bracket).1 rfl

theorem bracket_not_mem_target (h : src.WellFormed) : '[' ∉ (ofSource src).target.toList := by
  intro bracket
  rw [ofSource, String.toList_ofList] at bracket
  exact h.bracket_not_mem (by simp [Source.body, Text.mem_of_mem_trim bracket])

theorem bracket_not_mem_anchor (h : src.WellFormed) : ∀ t ∈ (ofSource src).anchor, '[' ∉ t.toList := by
  intro t part bracket
  have inAnchor := (List.dropWhile_suffix _).subset (mem_of_mem_part? part bracket)
  exact h.bracket_not_mem (by simp [Source.body, inAnchor])

theorem mem_of_mem_labelText {s : List Char} {c : Char} (h : c ∈ labelText s) : c ∈ s := by
  unfold labelText at h
  split at h
  · exact List.mem_cons_of_mem _ h
  · exact List.mem_cons_of_mem _ (List.mem_cons_of_mem _ h)
  · exact h

theorem bracket_not_mem_label (h : src.WellFormed) : ∀ t ∈ (ofSource src).label, '[' ∉ t.toList := by
  intro t part bracket
  have inLabel := mem_of_mem_labelText (mem_of_mem_part? part bracket)
  exact h.bracket_not_mem (by simp [Source.body, inLabel])

end Reference

namespace Stage

open Html Reference StageM

variable {o : Options} {c : Context}

theorem Links.bracket_not_mem_firstText {texts : List (Option String)}
    (h : ∀ p ∈ texts, ∀ t ∈ p, '[' ∉ t.toList) : '[' ∉ (firstText texts).toList := by
  rcases firstText_eq texts with same | member
  · rw [same]
    simp
  · exact h _ member _ rfl

theorem Links.bracket_not_mem_resolve {target : String} {anchor label : Option String}
    (ht : '[' ∉ target.toList) (ha : ∀ t ∈ anchor, '[' ∉ t.toList) (hl : ∀ t ∈ label, '[' ∉ t.toList) :
    '[' ∉ (resolve target anchor label c o).text.toList ∧
      '[' ∉ ((resolve target anchor label c o).url.getD "").toList := by
  have ofTarget : ∀ t ∈ some target, '[' ∉ t.toList := by
    rintro _ ⟨⟩
    exact ht
  have nil : ∀ p ∈ ([] : List (Option String)), ∀ t ∈ p, '[' ∉ t.toList := nofun
  have slug : '[' ∉ (if target.isEmpty then "" else Slug.ofTarget target).toList := by
    split
    · simp
    · rw [Slug.ofTarget, Slug.page, String.toList_ofList]
      exact mt Slug.bracket_of_mem_pageChars ht
  unfold resolve
  dsimp only
  generalize (if target.isEmpty then "" else Slug.ofTarget target) = page at slug
  split
  · exact ⟨bracket_not_mem_firstText (List.forall_mem_cons.mpr
      ⟨hl, List.forall_mem_cons.mpr ⟨ofTarget, nil⟩⟩), ht⟩
  · have text : '[' ∉ (firstText [label, some target, anchor]).toList :=
      bracket_not_mem_firstText (List.forall_mem_cons.mpr ⟨hl, List.forall_mem_cons.mpr
        ⟨ofTarget, List.forall_mem_cons.mpr ⟨ha, nil⟩⟩⟩)
    split
    · exact ⟨text, by simp⟩
    · refine ⟨text, ?_⟩
      rw [Option.getD_some, String.toList_append, List.mem_append, not_or]
      refine ⟨slug, ?_⟩
      cases anchor with
      | none => simp
      | some a =>
          dsimp only
          split
          · simp
          · simpa using ha a rfl

theorem Links.bracket_not_mem_toHtml {target : String} {anchor label : Option String}
    (ht : '[' ∉ target.toList) (ha : ∀ t ∈ anchor, '[' ∉ t.toList) (hl : ∀ t ∈ label, '[' ∉ t.toList) :
    '[' ∉ (resolve target anchor label c o).toHtml.toList := by
  obtain ⟨text, url⟩ := bracket_not_mem_resolve (c := c) (o := o) ht ha hl
  unfold LinkResolution.toHtml
  split
  · simpa [escape] using mt bracket_of_mem_escapeChars text
  · simpa [escape] using ⟨mt bracket_of_mem_escapeChars url, mt bracket_of_mem_escapeChars text⟩

theorem Tags.bracket_not_mem_linkMarkup {value : String} (h : '[' ∉ value.toList) :
    '[' ∉ (linkMarkup c (Slug.ofTag value)).toList := by
  have slug : '[' ∉ (Slug.ofTag value).toList := by
    rw [Slug.ofTag, String.toList_ofList]
    exact mt Slug.bracket_of_mem_tagChars h
  have url : '[' ∉ (c.tagUrl (Slug.ofTag value)).toList := by
    simpa [Context.tagUrl, Context.baseUrl, slug] using Slug.bracket_not_mem_toRoot c.slug
  simpa [linkMarkup, escape] using ⟨mt bracket_of_mem_escapeChars url, mt bracket_of_mem_escapeChars slug⟩

namespace RawMarkup

variable {r : Run} {s : List Char}

/-- The pass over references lowers the number of brackets unless all references are embedded. -/
theorem count_linked_le (o : Options) (c : Context) (s : List Char) :
    (linked o c s).count '[' ≤ s.count '[' ∧
      ((∃ ref source, .reference ref source ∈ Reference.pieces s ∧ ref.embedded = false) →
        (linked o c s).count '[' < s.count '[') := by
  have fewer : ∀ ref source, .reference ref source ∈ Reference.pieces s → ref.embedded = false →
      (linkText o c (.reference ref source)).count '[' <
        (Reference.Piece.reference ref source).source.count '[' := by
    intro ref source found link
    cases pieces_found s _ found with
    | @reference src wellFormed =>
        have none : '[' ∉ (Links.resolve (ofSource src).target (ofSource src).anchor
            (ofSource src).label c o).toHtml.toList :=
          Links.bracket_not_mem_toHtml (bracket_not_mem_target wellFormed)
            (bracket_not_mem_anchor wellFormed) (bracket_not_mem_label wellFormed)
        rw [linkText, if_neg (by simp [link]), List.count_eq_zero.mpr none]
        exact List.count_pos_iff.mpr (by simp [Reference.Piece.source, Source.written])
  have each : ∀ p ∈ Reference.pieces s, (linkText o c p).count '[' ≤ p.source.count '[' := by
    intro p found
    cases p with
    | gap cs => exact le_rfl
    | reference ref source =>
        cases kind : ref.embedded with
        | true =>
            rw [linkText, if_pos kind]
            rfl
        | false => exact (fewer ref source found kind).le
  have source : s.count '[' = ((Reference.pieces s).flatMap Reference.Piece.source).count '[' := by
    rw [Reference.pieces_source]
  rw [linked, source]
  refine ⟨Text.count_flatMap_le each, ?_⟩
  rintro ⟨ref, text, found, link⟩
  exact Text.count_flatMap_lt each ⟨_, found, fewer ref text found link⟩

theorem count_highlighted_le (o : Options) (s : List Char) :
    (highlighted o s).count '[' ≤ s.count '[' := by
  have each : ∀ p ∈ Highlight.pieces s, (highlightText p).count '[' ≤ p.source.count '[' := by
    intro p _
    cases p with
    | gap ch => exact le_rfl
    | highlight content =>
        have opening : "<span class=\"text-highlight\">".toList.count '[' = 0 := by decide
        have closing : "</span>".toList.count '[' = 0 := by decide
        unfold highlightText Highlight.markup
        simp only [String.toList_append, String.toList_ofList, List.count_append, opening, closing]
        simp [Highlight.Piece.source]
  have source : s.count '[' = ((Highlight.pieces s).flatMap Highlight.Piece.source).count '[' := by
    rw [Highlight.pieces_source]
  unfold highlighted
  split
  · rw [resolveHighlights_eq, source]
    exact Text.count_flatMap_le each
  · exact le_rfl

theorem count_tagged_le (c : Context) (s : List Char) : (tagged c s).count '[' ≤ s.count '[' := by
  have each : ∀ p ∈ TagText.pieces true s, (tagText c p).count '[' ≤ p.source.count '[' := by
    intro p found
    cases p with
    | gap ch => exact le_rfl
    | tag value =>
        unfold tagText
        dsimp only
        split
        · exact le_rfl
        · have none : '[' ∉ value := fun bracket => (TagText.isValue_of_mem_pieces found).not_mem_tag
            (d := '[') (by decide) (by simp [bracket])
          rw [List.count_eq_zero.mpr (Tags.bracket_not_mem_linkMarkup (by simpa using none))]
          exact Nat.zero_le _
  have source : s.count '[' = ((TagText.pieces true s).flatMap TagText.Piece.source).count '[' := by
    rw [TagText.pieces_source]
  rw [tagged, source]
  exact Text.count_flatMap_le each

theorem resolveLinks_eq_self
    (h : ¬ ∃ ref source, .reference ref source ∈ Reference.pieces s ∧ ref.embedded = false) (r : Run) :
    (resolveLinks o s).outcome r = (.ok s, r) := by
  have each : ∀ p ∈ Reference.pieces s, ∀ t, t = r →
      ∃ u, (replaceReference o p).outcome t = (.ok p.source, u) ∧ u = r := by
    rintro p hp _ rfl
    refine ⟨_, ?_, rfl⟩
    cases p with
    | gap cs => rfl
    | reference ref source =>
        have embedded : ref.embedded = true := by
          by_contra link
          exact h ⟨ref, source, hp, by simpa using link⟩
        rw [replaceReference, if_pos embedded]
        rfl
  obtain ⟨u, hu, rfl⟩ := outcome_mapM each rfl
  rw [resolveLinks_eq, outcome_bind_ok hu, ← List.flatMap_def, Reference.pieces_source]
  rfl

theorem highlighted_eq_self (h : (highlighted o s).count '<' ≤ s.count '<') : highlighted o s = s := by
  unfold highlighted at h ⊢
  split
  · next on =>
      rw [if_pos on] at h
      exact resolveHighlights_eq_self fun found => absurd ((count_le_resolveHighlights s).2 found) (by omega)
  · rfl

/-- No reference is replaced in a text that the passes give back. -/
theorem links_of_passes (same : passes o c s = s) (r : Run) :
    (if o.enabled .wikilinks then resolveLinks o s else pure s).outcome r = (.ok s, r) := by
  split
  · next on =>
      refine resolveLinks_eq_self (fun link => ?_) r
      have fewer := (count_linked_le o c s).2 link
      have spans := count_highlighted_le o (linked o c s)
      have anchors := count_tagged_le c (highlighted o (linked o c s))
      rw [passes, if_pos on] at same
      split at same
      · rw [same] at anchors
        omega
      · rw [same] at spans
        omega
  · rfl

/-- If raw markup gets its own text, the state stays as it is. -/
theorem resolve_eq_self {html : String} (same : ((resolve o html).outcome r).1 = .ok html) :
    (resolve o html).outcome r = (.ok html, r) := by
  obtain ⟨t, given⟩ := resolve_outcome o html r
  rw [given] at same
  have kept : passes o r.context html.toList = html.toList := by
    rw [← String.toList_ofList (l := passes _ _ _), Except.ok.inj same]
  have links := links_of_passes kept r
  have first : (if o.enabled .wikilinks then linked o r.context html.toList else html.toList) =
      html.toList := by
    split
    · next on =>
        obtain ⟨u, hu, -⟩ := resolveLinks_outcome o html.toList r
        rw [if_pos on, hu] at links
        exact Except.ok.inj (congrArg Prod.fst links)
    · rfl
  rw [passes, first] at kept
  have marks : (resolveMarks o html.toList).outcome r = (.ok html.toList, r) := by
    unfold resolveMarks
    split
    · next on =>
        rw [if_pos on] at kept
        obtain ⟨more, most⟩ := count_le_tagged r.context (highlighted o html.toList)
        rw [kept] at more most
        have spans := highlighted_eq_self more
        rw [spans] at most ⊢
        exact resolveTags_eq_self (fun found => lt_irrefl _ (most found)) r
    · next off =>
        rw [if_neg off] at kept
        rw [kept]
        rfl
  rw [resolve_eq, outcome_bind_ok links, outcome_bind_ok marks, outcome_pure, String.ofList_toList]

end RawMarkup

end Stage

end NoteMarkup
