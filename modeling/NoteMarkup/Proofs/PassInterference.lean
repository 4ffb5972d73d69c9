import Mathlib
import NoteMarkup.Proofs.AnchorText
import NoteMarkup.Proofs.RawPasses

/-! When the passes over highlights and tags leave alone what the pass over references gives. Both
replace what they find by markup with more opening brackets, so they give a text back only if they
find nothing in it. An anchor never holds a tag, but it can hold a highlight, and a reference that is
embedded can hold either. -/

namespace NoteMarkup

namespace Text

variable {α : Type} {f g : α → List Char} {ps : List α} {c : Char}

theorem count_flatMap_le (h : ∀ p ∈ ps, (f p).count c ≤ (g p).count c) :
    (ps.flatMap f).count c ≤ (ps.flatMap g).count c := by
  rw [List.count_flatMap, List.count_flatMap]
  exact List.sum_le_sum h

theorem count_flatMap_lt (h : ∀ p ∈ ps, (f p).count c ≤ (g p).count c)
    (more : ∃ p ∈ ps, (f p).count c < (g p).count c) :
    (ps.flatMap f).count c < (ps.flatMap g).count c := by
  rw [List.count_flatMap, List.count_flatMap]
  exact List.sum_lt_sum _ _ h more

end Text

namespace Stage.RawMarkup

open StageM

variable {o : Options} {c : Context} {r : Run} {s : List Char}

theorem resolveHighlights_eq_self (h : ¬ Highlight.Occurs s) : resolveHighlights s = s := by
  have same : ∀ p ∈ Highlight.pieces s, highlightText p = p.source := by
    intro p hp
    cases p with
    | gap ch => rfl
    | highlight content => exact (h ((Highlight.exists_highlight_iff s).mp ⟨content, hp⟩)).elim
  rw [resolveHighlights_eq, List.flatMap_congr same, Highlight.pieces_source]

theorem resolveTags_eq_self (h : ¬ TagText.Occurs s) (r : Run) :
    (resolveTags s).outcome r = (.ok s, r) := by
  have each : ∀ p ∈ TagText.pieces true s, ∀ t, t = r →
      ∃ u, (replaceTag p).outcome t = (.ok p.source, u) ∧ u = r := by
    rintro p hp _ rfl
    refine ⟨_, ?_, rfl⟩
    cases p with
    | gap ch => rfl
    | tag value =>
        have numeric : TagText.isNumeric (String.ofList value) = true := by
          by_contra letters
          exact h ((TagText.exists_tag_iff true s).mp ⟨value, hp, by simpa using letters⟩)
        rw [replaceTag, if_pos numeric]
        rfl
  obtain ⟨u, hu, rfl⟩ := outcome_mapM each rfl
  rw [resolveTags_eq, outcome_bind_ok hu, ← List.flatMap_def, TagText.pieces_source]
  rfl

theorem count_highlightText_lt (content : List Char) :
    (Highlight.Piece.highlight content).source.count '<' <
      (highlightText (.highlight content)).count '<' := by
  have marks : (Highlight.Piece.highlight content).source.count '<' = content.count '<' := by
    simp [Highlight.Piece.source]
  have opening : 0 < "<span class=\"text-highlight\">".toList.count '<' :=
    List.count_pos_iff.mpr (by simp)
  unfold highlightText Highlight.markup
  simp only [String.toList_append, String.toList_ofList, List.count_append, marks] at opening ⊢
  omega

theorem count_le_resolveHighlights (s : List Char) :
    s.count '<' ≤ (resolveHighlights s).count '<' ∧
      (Highlight.Occurs s → s.count '<' < (resolveHighlights s).count '<') := by
  have each : ∀ p ∈ Highlight.pieces s, p.source.count '<' ≤ (highlightText p).count '<' := by
    intro p _
    cases p with
    | gap ch => exact le_rfl
    | highlight content => exact (count_highlightText_lt content).le
  have source : s.count '<' = ((Highlight.pieces s).flatMap Highlight.Piece.source).count '<' := by
    rw [Highlight.pieces_source]
  rw [resolveHighlights_eq, source]
  refine ⟨Text.count_flatMap_le each, fun h => ?_⟩
  obtain ⟨content, found⟩ := (Highlight.exists_highlight_iff s).mpr h
  exact Text.count_flatMap_lt each ⟨_, found, count_highlightText_lt content⟩

theorem count_tagText_lt {value : List Char} (hv : TagText.IsValue value)
    (letters : TagText.isNumeric (String.ofList value) = false) (c : Context) :
    (TagText.Piece.tag value).source.count '<' < (tagText c (.tag value)).count '<' := by
  have none : '<' ∉ (TagText.Piece.tag value).source := hv.not_mem_tag (by decide)
  rw [List.count_eq_zero.mpr none, tagText, if_neg (by simp [letters])]
  simp [Tags.linkMarkup]

theorem count_le_tagged (c : Context) (s : List Char) :
    s.count '<' ≤ (tagged c s).count '<' ∧
      (TagText.Occurs s → s.count '<' < (tagged c s).count '<') := by
  have each : ∀ p ∈ TagText.pieces true s, p.source.count '<' ≤ (tagText c p).count '<' := by
    intro p hp
    cases p with
    | gap ch => exact le_rfl
    | tag value =>
        cases numeric : TagText.isNumeric (String.ofList value) with
        | true =>
            rw [tagText, if_pos numeric]
            rfl
        | false => exact (count_tagText_lt (TagText.isValue_of_mem_pieces hp) numeric c).le
  have source : s.count '<' = ((TagText.pieces true s).flatMap TagText.Piece.source).count '<' := by
    rw [TagText.pieces_source]
  rw [tagged, source]
  refine ⟨Text.count_flatMap_le each, fun h => ?_⟩
  obtain ⟨value, found, letters⟩ := (TagText.exists_tag_iff true s).mpr h
  exact Text.count_flatMap_lt each
    ⟨_, found, count_tagText_lt (TagText.isValue_of_mem_pieces found) letters c⟩

/-- The passes over highlights and tags give a text back exactly if there is nothing for them in it. -/
theorem tagged_resolveHighlights_iff (c : Context) (s : List Char) :
    tagged c (resolveHighlights s) = s ↔ ¬ Highlight.Occurs s ∧ ¬ TagText.Occurs s := by
  constructor
  · intro same
    obtain ⟨spans, span⟩ := count_le_resolveHighlights s
    obtain ⟨links, link⟩ := count_le_tagged c (resolveHighlights s)
    rw [same] at links link
    have noHighlight : ¬ Highlight.Occurs s := fun h => absurd (span h) (by omega)
    rw [resolveHighlights_eq_self noHighlight] at link
    exact ⟨noHighlight, fun h => lt_irrefl _ (link h)⟩
  · rintro ⟨noHighlight, noTag⟩
    rw [resolveHighlights_eq_self noHighlight]
    obtain ⟨u, given, -⟩ := resolveTags_outcome s ⟨c, []⟩
    rw [resolveTags_eq_self noTag] at given
    exact (Except.ok.inj (congrArg Prod.fst given)).symm

theorem resolveMarks_eq_self (noHighlight : ¬ Highlight.Occurs s) (noTag : ¬ TagText.Occurs s)
    (r : Run) : (resolveMarks o s).outcome r = (.ok s, r) := by
  have same : highlighted o s = s := by
    unfold highlighted
    split
    · exact resolveHighlights_eq_self noHighlight
    · rfl
  rw [resolveMarks, same]
  split
  · exact resolveTags_eq_self noTag r
  · rfl

theorem not_occurs_of_resolveMarks (highlights : o.enabled .highlight = true)
    (tags : o.enabled .parseTags = true) (h : ((resolveMarks o s).outcome r).1 = .ok s) :
    ¬ Highlight.Occurs s ∧ ¬ TagText.Occurs s := by
  obtain ⟨u, given, -⟩ := resolveTags_outcome (resolveHighlights s) r
  rw [resolveMarks, if_pos tags, highlighted, if_pos highlights, given] at h
  exact (tagged_resolveHighlights_iff r.context s).mp (Except.ok.inj h)

variable {source : String} {ref : Reference}

/-- The options without the passes over highlights and tags. -/
def linksOnly (o : Options) : Options := (o.set .highlight false).set .parseTags false

/-- What the pass over references gives for a text that is one reference. -/
def referenceText (o : Options) (c : Context) (source : String) (ref : Reference) : String :=
  if ref.embedded then source else (Links.resolve ref.target ref.anchor ref.label c o).toHtml

theorem resolveLinks_reference (parsed : Reference.parse? source = some ref) (r : Run) :
    ∃ t, (resolveLinks o source.toList).outcome r =
        (.ok (referenceText o r.context source ref).toList, t) ∧
      t.context = r.context := by
  obtain ⟨src, wellFormed, same, rfl⟩ := Reference.parse?_eq_some_iff.mp parsed
  obtain ⟨t, replaced, kept⟩ := replaceReference_outcome (o := o)
    (.reference (Reference.ofSource src) src.written) r
  have text : linkText o r.context (.reference (Reference.ofSource src) src.written) =
      (referenceText o r.context source (Reference.ofSource src)).toList := by
    rw [linkText, referenceText]
    split
    · exact same.symm
    · rfl
  rw [text] at replaced
  rw [same]
  exact ⟨t, resolveLinks_single (Reference.pieces_written wellFormed) replaced, kept⟩

theorem referenceText_not_occurs (parsed : Reference.parse? source = some ref)
    (linked : ref.embedded = false) : ¬ TagText.Occurs (referenceText o c source ref).toList := by
  obtain ⟨src, wellFormed, -, rfl⟩ := Reference.parse?_eq_some_iff.mp parsed
  rw [referenceText, if_neg (by rw [linked]; exact Bool.false_ne_true)]
  exact Links.toHtml_not_occurs (Reference.markless_target wellFormed)
    (Reference.markless_anchor wellFormed) (Reference.markless_label wellFormed)

variable {text : String} {t : Run}

theorem resolve_of_links (links : o.enabled .wikilinks = true)
    (first : (resolveLinks o source.toList).outcome r = (.ok text.toList, t)) :
    (resolve o source).outcome r =
      (resolveMarks o text.toList >>= fun s => pure (String.ofList s)).outcome t := by
  rw [resolve_eq, if_pos links, outcome_bind_ok first]

theorem resolve_keeps (links : o.enabled .wikilinks = true)
    (first : (resolveLinks o source.toList).outcome r = (.ok text.toList, t))
    (noHighlight : ¬ Highlight.Occurs text.toList) (noTag : ¬ TagText.Occurs text.toList) :
    (resolve o source).outcome r = (.ok text, t) := by
  rw [resolve_of_links links first, outcome_bind_ok (resolveMarks_eq_self noHighlight noTag t)]
  exact congrArg (fun text => (Except.ok text, t)) String.ofList_toList

theorem not_occurs_of_resolve (links : o.enabled .wikilinks = true)
    (highlights : o.enabled .highlight = true) (tags : o.enabled .parseTags = true)
    (first : (resolveLinks o source.toList).outcome r = (.ok text.toList, t))
    (same : ((resolve o source).outcome r).1 = .ok text) :
    ¬ Highlight.Occurs text.toList ∧ ¬ TagText.Occurs text.toList := by
  refine not_occurs_of_resolveMarks (r := t) highlights tags ?_
  rw [resolve_of_links links first] at same
  rcases marks : (resolveMarks o text.toList).outcome t with ⟨e | s, u⟩
  · rw [outcome_bind_error marks] at same
    cases same
  · rw [outcome_bind_ok marks] at same
    have given : String.ofList s = text := Except.ok.inj same
    rw [← given, String.toList_ofList]

/-- A text that is one reference gets the same with the later passes as without them exactly if what
the first pass gives for it holds no highlight and, for an embedded one, no tag. Then no tag is
recorded either. -/
theorem later_passes_keep_iff (o : Options) (links : o.enabled .wikilinks = true)
    (highlights : o.enabled .highlight = true) (tags : o.enabled .parseTags = true)
    (source : String) (ref : Reference) (parsed : Reference.parse? source = some ref) (r : Run) :
    ∃ text t, text = referenceText o r.context source ref ∧
      (resolve (linksOnly o) source).outcome r = (.ok text, t) ∧ t.context = r.context ∧
      ((resolve o source).outcome r = (.ok text, t) ↔
        ¬ Highlight.Occurs text.toList ∧
          (ref.embedded = true → ¬ TagText.Occurs text.toList)) ∧
      (((resolve o source).outcome r).1 = .ok text →
        (resolve o source).outcome r = (.ok text, t)) := by
  obtain ⟨t, first, kept⟩ := resolveLinks_reference (o := o) parsed r
  have noTag := referenceText_not_occurs (o := o) (c := r.context) parsed
  have back := not_occurs_of_resolve links highlights tags first
  refine ⟨referenceText o r.context source ref, t, rfl, ?_, kept, ⟨?_, ?_⟩, ?_⟩
  · have same : resolveLinks (linksOnly o) source.toList = resolveLinks o source.toList := rfl
    rw [resolve_of_links (o := linksOnly o) links (same ▸ first)]
    exact congrArg (fun text => (Except.ok text, t)) String.ofList_toList
  · intro given
    obtain ⟨noHighlight, none⟩ := back (congrArg Prod.fst given)
    exact ⟨noHighlight, fun _ => none⟩
  · rintro ⟨noHighlight, embedded⟩
    refine resolve_keeps links first noHighlight ?_
    cases kind : ref.embedded with
    | true => exact embedded kind
    | false => exact noTag kind
  · intro given
    exact resolve_keeps links first (back given).1 (back given).2

theorem titledLink_kept :
    ∃ t, (resolve Options.defaults "[[Some Note#Part|shown]]").outcome
        ⟨Context.new "notes/a" none, []⟩ =
      (.ok "<a href=\"Some-Note#Part\">shown</a>", t) := by
  have parsed : Reference.parse? "[[Some Note#Part|shown]]" =
      some ⟨"Some Note", some "Part", some "shown", false⟩ := by cbv
  have found : Links.resolve "Some Note" (some "Part") (some "shown") (Context.new "notes/a" none)
      Options.defaults = ⟨some "Some-Note#Part", "shown", false, false⟩ := by decide
  have text : referenceText Options.defaults (Context.new "notes/a" none) "[[Some Note#Part|shown]]"
      ⟨"Some Note", some "Part", some "shown", false⟩ =
      "<a href=\"Some-Note#Part\">shown</a>" := by
    unfold referenceText
    rw [if_neg Bool.false_ne_true, found]
    cbv
  obtain ⟨_, t, rfl, -, -, kept, -⟩ := later_passes_keep_iff Options.defaults rfl rfl rfl _ _ parsed
    ⟨Context.new "notes/a" none, []⟩
  rw [text] at kept
  refine ⟨t, kept.mpr ⟨fun highlight => ?_, by rintro ⟨⟩⟩⟩
  exact Highlight.Occurs.not_isSingle highlight (by decide)

/-- A tag in an embedded reference is replaced and recorded. -/
theorem embeddedTag_changed :
    (∃ ref, Reference.parse? "![[a #b]]" = some ref ∧ ref.embedded = true) ∧
    ((resolve (linksOnly Options.defaults) "![[a #b]]").outcome ⟨Context.new "index" none, []⟩).1 =
      .ok "![[a #b]]" ∧
    ((resolve Options.defaults "![[a #b]]").outcome ⟨Context.new "index" none, []⟩).1 =
      .ok "![[a <a href=\"./tags/b\" class=\"tag-link\">b</a>]]" ∧
    ((resolve Options.defaults "![[a #b]]").outcome
      ⟨Context.new "index" none, []⟩).2.context.tags = ["b"] := by
  have parsed : Reference.parse? "![[a #b]]" = some ⟨"a", some "b", none, true⟩ := by cbv
  exact ⟨⟨_, parsed, rfl⟩, by cbv, by cbv, by cbv⟩

end Stage.RawMarkup

end NoteMarkup
