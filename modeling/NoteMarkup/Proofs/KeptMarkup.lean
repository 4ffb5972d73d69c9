import Mathlib
import NoteMarkup.Proofs.AnchorText
import NoteMarkup.Proofs.Edited
import NoteMarkup.Proofs.RawPasses

/-! Which markup the passes over raw markup keep. They read a text and know nothing of markup in it, so
a piece of markup stays as it is, and in its place, where no reference reaches into it and where it
holds no marks of highlights and no tag. -/

namespace NoteMarkup.Stage.RawMarkup

open StageM Text

variable {o : Options} {c : Context} {s : List Char}

/-- What the pass over references swaps. -/
def LinkSwap (s : List Char) (before : Option Char) (old : List Char) : Prop :=
  before ≠ some '!' ∧ ∃ src, Reference.LinkIn s src ∧ old = src.written

/-- What the pass over highlights swaps: the marks. -/
def MarkSwap (_ : Option Char) (old : List Char) : Prop := old = ['=', '=']

/-- What the pass over tags swaps. -/
def TagSwap (before : Option Char) (old : List Char) : Prop :=
  (before.map isBlank).getD true = true ∧
    ∃ value, TagText.IsValue value ∧ TagText.isNumeric (String.ofList value) = false ∧
      old = '#' :: value

theorem linked_cons_of_split? {rest : List Char} {src : Reference.Source}
    (h : Reference.split? s = some (src, rest)) :
    linked o c s = linkText o c (.reference (Reference.ofSource src) src.written) ++
      linked o c rest := by
  rw [linked, Reference.pieces_cons_of_split? h, List.flatMap_cons]
  rfl

theorem linked_cons_of_none {d : Char} {ds : List Char} (h : Reference.split? (d :: ds) = none) :
    linked o c (d :: ds) = d :: linked o c ds := by
  rw [linked, Reference.pieces_cons_of_none h, List.flatMap_cons]
  rfl

/-- The scan stands in the text after `front`. It has passed a `!` only if no embedded reference
starts there. -/
theorem linked_edited_from (o : Options) (c : Context) (s rest front : List Char)
    (whole : s = front ++ rest)
    (passed : front.getLast? = some '!' → Reference.split? ('!' :: rest) = none) :
    Edited (LinkSwap s) front.getLast? rest (linked o c rest) := by
  induction rest using Reference.pieces_induct generalizing front with
  | nil =>
      rw [linked, Reference.pieces]
      exact .nil
  | reference src rest wellFormed found ih =>
      have ends : (front ++ src.written).getLast? = some ']' := by
        rw [List.getLast?_append, src.getLast?_written]
        rfl
      have later := ih (front ++ src.written) (by rw [whole, List.append_assoc]) fun mark =>
        absurd (ends.symm.trans mark) (by decide)
      rw [List.getLast?_append] at later
      rw [linked_cons_of_split? found]
      cases embedded : src.embedded with
      | true =>
          have stays : (Reference.ofSource src).embedded = true := embedded
          rw [linkText, if_pos stays]
          exact .keepAll _ later
      | false =>
          have free : front.getLast? ≠ some '!' := by
            intro mark
            have marked := Reference.split?_of_mark wellFormed embedded rest
            cases (passed mark).symm.trans marked
          exact .swap _ ⟨free, src, ⟨wellFormed, embedded, front, rest, whole, free⟩, rfl⟩ later
  | gap d ds none ih =>
      rw [linked_cons_of_none none]
      refine .keep d ?_
      have later := ih (front ++ [d]) (by simp [whole])
      rw [List.getLast?_concat] at later
      refine later fun mark => ?_
      rw [← Option.some.inj mark]
      exact none

theorem linked_edited (o : Options) (c : Context) (s : List Char) :
    Edited (LinkSwap s) none s (linked o c s) :=
  linked_edited_from o c s s [] rfl (by rintro ⟨⟩)

theorem resolveHighlights_edited (before : Option Char) (s : List Char) :
    Edited MarkSwap before s (resolveHighlights s) := by
  induction s using Highlight.pieces_induct generalizing before with
  | nil =>
      rw [resolveHighlights_eq, Highlight.pieces]
      exact .nil
  | highlight content rest found ih =>
      have text : resolveHighlights ('=' :: '=' :: (content ++ '=' :: '=' :: rest)) =
          "<span class=\"text-highlight\">".toList ++
            (content ++ ("</span>".toList ++ resolveHighlights rest)) := by
        rw [resolveHighlights_eq, Highlight.pieces_cons_of_split? found, List.flatMap_cons,
          ← resolveHighlights_eq]
        unfold highlightText Highlight.markup
        simp only [String.toList_append, String.toList_ofList, List.append_assoc]
      rw [text]
      exact .swap _ rfl (.keepAll content (.swap _ rfl (ih _)))
  | gap d ds none ih =>
      rw [resolveHighlights_eq, Highlight.pieces_cons_of_none none, List.flatMap_cons]
      exact .keep d (ih _)

theorem tagged_edited_from (c : Context) (start : Bool) (s : List Char) (before : Option Char)
    (h : (before.map isBlank).getD true = start) :
    Edited TagSwap before s ((TagText.pieces start s).flatMap (tagText c)) := by
  induction start, s using TagText.pieces_induct generalizing before with
  | nil start =>
      rw [TagText.pieces]
      exact .nil
  | tag value rest hv found ih =>
      rw [TagText.pieces_cons_of_split? found, List.flatMap_cons, ← List.cons_append]
      have ends : TagText.mayStart true ('#' :: value) = false := by
        rw [TagText.mayStart_cons, TagText.mayStart_value hv]
      have last : ('#' :: value).getLast?.or before = ('#' :: value).getLast? := by
        rw [List.getLast?_eq_some_getLast (List.cons_ne_nil '#' value)]
        rfl
      have later := ih (('#' :: value).getLast?.or before) (by rw [last]; exact ends)
      cases numeric : TagText.isNumeric (String.ofList value) with
      | true =>
          rw [tagText, if_pos numeric]
          exact .keepAll _ later
      | false => exact .swap _ ⟨h, value, hv, numeric, rfl⟩ later
  | gap start d ds none ih =>
      rw [TagText.pieces_cons_of_none none, List.flatMap_cons]
      exact .keep d (ih (some d) rfl)

theorem tagged_edited (c : Context) (s : List Char) : Edited TagSwap none s (tagged c s) :=
  tagged_edited_from c true s none rfl

variable {parts : List (List Char × List Char)} {last : List Char}

theorem linked_keeps_markup (isMarkup : ∀ m ∈ markup parts, IsMarkup m)
    (whole : ∀ src, Reference.LinkIn (woven parts last) src → '<' ∉ src.written ∧ '>' ∉ src.written)
    (clear : ∀ m ∈ markup parts, ∀ src, ¬ Reference.LinkIn m src) (o : Options) (c : Context) :
    ∃ parts' last', linked o c (woven parts last) = woven parts' last' ∧
      markup parts' = markup parts := by
  refine (linked_edited o c (woven parts last)).keeps_markup isMarkup ?_ ?_
  · rintro before _ ⟨-, src, standing, rfl⟩
    exact whole src standing
  · rintro m hm front _ back same ⟨free, src, ⟨wellFormed, embedded, -⟩, rfl⟩
    exact clear m hm src ⟨wellFormed, embedded, front, back, by rw [same, List.append_assoc], free⟩

theorem resolveHighlights_keeps_markup (isMarkup : ∀ m ∈ markup parts, IsMarkup m)
    (clear : ∀ m ∈ markup parts, Highlight.IsSingle m) :
    ∃ parts' last', resolveHighlights (woven parts last) = woven parts' last' ∧
      markup parts' = markup parts := by
  refine (resolveHighlights_edited none (woven parts last)).keeps_markup isMarkup ?_ ?_
  · rintro before _ rfl
    decide
  · rintro m hm front _ back rfl rfl
    rw [List.append_assoc] at hm
    exact Highlight.not_isSingle_marks front back (clear _ hm)

theorem tagged_keeps_markup (isMarkup : ∀ m ∈ markup parts, IsMarkup m)
    (clear : ∀ m ∈ markup parts, ¬ TagText.Occurs m) (c : Context) :
    ∃ parts' last', tagged c (woven parts last) = woven parts' last' ∧
      markup parts' = markup parts := by
  refine (tagged_edited c (woven parts last)).keeps_markup isMarkup ?_ ?_
  · rintro before _ ⟨-, value, hv, -, rfl⟩
    exact ⟨hv.not_mem_tag (by decide), hv.not_mem_tag (by decide)⟩
  · rintro m hm front _ back rfl ⟨starts, value, hv, letters, rfl⟩
    exact clear _ hm ⟨front, value, back, by simp, starts, hv, letters⟩

/-- Raw markup keeps its pieces of markup, in their order, where no reference reaches into one and
where none holds marks of highlights or a tag, each as far as the options ask for the pass. -/
theorem resolve_keeps_markup (o : Options) (parts : List (List Char × List Char)) (last : List Char)
    (isMarkup : ∀ m ∈ markup parts, IsMarkup m)
    (links : o.enabled .wikilinks = true →
      (∀ src, Reference.LinkIn (woven parts last) src → '<' ∉ src.written ∧ '>' ∉ src.written) ∧
        ∀ m ∈ markup parts, ∀ src, ¬ Reference.LinkIn m src)
    (highlights : o.enabled .highlight = true → ∀ m ∈ markup parts, Highlight.IsSingle m)
    (tags : o.enabled .parseTags = true → ∀ m ∈ markup parts, ¬ TagText.Occurs m) (r : Run) :
    ∃ parts' last' t, (resolve o (String.ofList (woven parts last))).outcome r =
        (.ok (String.ofList (woven parts' last')), t) ∧ markup parts' = markup parts := by
  obtain ⟨parts₁, last₁, text₁, same₁⟩ : ∃ parts' last',
      (if o.enabled .wikilinks then linked o r.context (woven parts last) else woven parts last) =
        woven parts' last' ∧ markup parts' = markup parts := by
    split
    · next on => exact linked_keeps_markup isMarkup (links on).1 (links on).2 o r.context
    · exact ⟨parts, last, rfl, rfl⟩
  rw [← same₁] at isMarkup highlights tags
  obtain ⟨parts₂, last₂, text₂, same₂⟩ : ∃ parts' last',
      highlighted o (woven parts₁ last₁) = woven parts' last' ∧ markup parts' = markup parts₁ := by
    unfold highlighted
    split
    · next on => exact resolveHighlights_keeps_markup isMarkup (highlights on)
    · exact ⟨parts₁, last₁, rfl, rfl⟩
  rw [← same₂] at isMarkup tags
  obtain ⟨parts₃, last₃, text₃, same₃⟩ : ∃ parts' last',
      (if o.enabled .parseTags then tagged r.context (woven parts₂ last₂) else woven parts₂ last₂) =
        woven parts' last' ∧ markup parts' = markup parts₂ := by
    split
    · next on => exact tagged_keeps_markup isMarkup (tags on) r.context
    · exact ⟨parts₂, last₂, rfl, rfl⟩
  obtain ⟨t, given⟩ := resolve_outcome o (String.ofList (woven parts last)) r
  refine ⟨parts₃, last₃, t, ?_, by rw [same₃, same₂, same₁]⟩
  rw [given, String.toList_ofList, passes, text₁, text₂, text₃]

/-- The context of a note that no stage has seen. -/
def fresh : Context := Context.new "index" none

/-- A paragraph with a style, a reference, a highlight and a tag. -/
def styledParagraph : List (List Char × List Char) :=
  [([], "<p style=\"color:#fff\">".toList), ("See [[x]] ==now== #todo ".toList, "</p>".toList)]

theorem styledParagraph_kept :
    ∃ parts' last' t, (resolve Options.defaults (String.ofList (woven styledParagraph []))).outcome
        ⟨fresh, []⟩ = (.ok (String.ofList (woven parts' last')), t) ∧
      markup parts' = ["<p style=\"color:#fff\">".toList, "</p>".toList] := by
  have isMarkup : ∀ m ∈ markup styledParagraph, IsMarkup m :=
    List.forall_mem_cons.mpr ⟨⟨"p style=\"color:#fff\"".toList, by decide⟩,
      List.forall_mem_singleton.mpr ⟨"/p".toList, by decide⟩⟩
  have scanned : ∀ p ∈ Reference.pieces (woven styledParagraph []),
      p.source.length = 1 ∨ p.source = "[[x]]".toList := by
    have texts : (Reference.pieces (woven styledParagraph [])).all (fun p =>
        p.source.length == 1 || p.source == "[[x]]".toList) = true := by cbv
    simpa using texts
  have apart : ∀ src, Reference.LinkIn (woven styledParagraph []) src →
      '<' ∉ src.written ∧ '>' ∉ src.written := by
    intro src standing
    rcases scanned _ (Reference.mem_pieces_of_linkIn standing) with single | same
    · have long : 1 < src.written.length := by
        simp only [Reference.Source.written, List.length_append, List.length_cons]
        omega
      exact absurd single (Nat.ne_of_gt long)
    · have written : src.written = "[[x]]".toList := same
      rw [written]
      decide
  have noBracket : ∀ m ∈ markup styledParagraph, '[' ∉ m := by decide
  have guarded : ∀ m ∈ markup styledParagraph, TagText.guarded true m = true := by decide
  exact resolve_keeps_markup Options.defaults styledParagraph [] isMarkup
    (fun _ => ⟨apart, fun m hm src standing => noBracket m hm standing.bracket_mem⟩)
    (fun _ => by decide) (fun _ m hm => TagText.not_occursFrom_of_guarded (guarded m hm)) ⟨fresh, []⟩

/-- With the options of a program that sets none, a text loses its piece of markup. -/
def Loses (gap m last : List Char) : Prop :=
  IsMarkup m ∧ ∃ html,
    ((resolve Options.defaults (String.ofList (woven [(gap, m)] last))).outcome ⟨fresh, []⟩).1 =
      .ok html ∧ ¬ m <:+: html.toList

theorem loses_of_passes (gap inner last : List Char) {s₁ s₂ s₃ : List Char}
    (links : linked Options.defaults fresh (gap ++ '<' :: (inner ++ ['>']) ++ last) = s₁)
    (spans : resolveHighlights s₁ = s₂) (tags : tagged fresh s₂ = s₃)
    (gone : ∀ t ∈ s₃.tails, ¬ '<' :: (inner ++ ['>']) <+: t) :
    Loses gap ('<' :: (inner ++ ['>'])) last := by
  obtain ⟨t, given⟩ := resolve_outcome Options.defaults
    (String.ofList (woven [(gap, '<' :: (inner ++ ['>']))] last)) ⟨fresh, []⟩
  have text : passes Options.defaults fresh (woven [(gap, '<' :: (inner ++ ['>']))] last) = s₃ := by
    change tagged fresh (resolveHighlights (linked Options.defaults fresh _)) = s₃
    rw [← tags, ← spans, ← links]
    simp [woven]
  refine ⟨⟨inner, rfl⟩, _, congrArg Prod.fst given, ?_⟩
  rw [String.toList_ofList, String.toList_ofList, text, List.infix_iff_prefix_suffix]
  rintro ⟨t, front, back⟩
  exact gone t ((List.mem_tails t s₃).mpr back) front

/-- A colour is taken for a tag, a title for a highlight, and a piece of markup for a part of the target
of a reference. -/
theorem attributes_lost :
    Loses [] "<p style=\"color: #fff\">".toList "x".toList ∧
    Loses [] "<i title=\"==x==\">".toList [] ∧
    Loses "[[a".toList "<b>".toList "c]]".toList := by
  refine ⟨?_, ?_, ?_⟩
  · have tags : tagged fresh "<p style=\"color: #fff\">x".toList =
        "<p style=\"color: <a href=\"./tags/fff\" class=\"tag-link\">fff</a>\">x".toList := by cbv
    exact loses_of_passes [] "p style=\"color: #fff\"".toList "x".toList (by cbv) (by cbv) tags
      (by decide)
  · have marks : Highlight.pieces "<i title=\"==x==\">".toList =
        "<i title=\"".toList.map .gap ++ .highlight ['x'] :: "\">".toList.map .gap := by cbv
    have spans : resolveHighlights "<i title=\"==x==\">".toList =
        "<i title=\"<span class=\"text-highlight\">x</span>\">".toList := by
      rw [resolveHighlights_eq, marks]
      unfold highlightText Highlight.markup
      simp
    have tags : tagged fresh "<i title=\"<span class=\"text-highlight\">x</span>\">".toList =
        "<i title=\"<span class=\"text-highlight\">x</span>\">".toList := by cbv
    exact loses_of_passes [] "i title=\"==x==\"".toList [] (by cbv) spans tags (by decide)
  · have found : Reference.pieces "[[a<b>c]]".toList =
        [.reference ⟨"a<b>c", none, none, false⟩ "[[a<b>c]]".toList] := by cbv
    have resolved : Links.resolve "a<b>c" none none fresh Options.defaults =
        ⟨some "a<b>c", "a<b>c", false, false⟩ := by decide
    have links : linked Options.defaults fresh "[[a<b>c]]".toList =
        "<a href=\"a&lt;b&gt;c\">a&lt;b&gt;c</a>".toList := by
      rw [linked, found, List.flatMap_singleton, linkText, if_neg Bool.false_ne_true, resolved]
      cbv
    have spans : resolveHighlights "<a href=\"a&lt;b&gt;c\">a&lt;b&gt;c</a>".toList =
        "<a href=\"a&lt;b&gt;c\">a&lt;b&gt;c</a>".toList := by cbv
    have tags : tagged fresh "<a href=\"a&lt;b&gt;c\">a&lt;b&gt;c</a>".toList =
        "<a href=\"a&lt;b&gt;c\">a&lt;b&gt;c</a>".toList := by cbv
    exact loses_of_passes "[[a".toList ['b'] "c]]".toList links spans tags (by decide)

end NoteMarkup.Stage.RawMarkup
