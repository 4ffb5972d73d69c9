import Mathlib
import NoteMarkup.Proofs.Escaping
import NoteMarkup.Proofs.MarkSyntax
import NoteMarkup.Proofs.RawPasses
import NoteMarkup.Proofs.Record
import NoteMarkup.Proofs.RenderedText

/-! A reference or a tag turns into the same markup whether it stands in the tree of a note, where it
becomes a node that is rendered, or in raw markup, where its text is replaced. What it leaves in the
context and in the log is the same too. -/

namespace NoteMarkup

namespace Text

theorem trimLeft_trim (s : List Char) : trimLeft (trim s) = trim s := by
  refine List.dropWhile_eq_self_iff.mpr fun some => ?_
  have front : trim s <+: trimLeft s := List.rdropWhile_prefix isBlank _
  rw [front.getElem some]
  exact List.dropWhile_get_zero_not isBlank s _

theorem trim_trim (s : List Char) : trim (trim s) = trim s := by
  conv_lhs => rw [trim, trimLeft_trim]
  exact List.rdropWhile_idempotent isBlank (trimLeft s)

end Text

namespace Reference

theorem trimPart_part? (s : List Char) : Stage.Links.trimPart (part? s) = part? s := by
  unfold part?
  dsimp only
  split
  · rfl
  · next visible =>
      rw [Stage.Links.trimPart, Option.bind_some, String.toList_ofList, part?, Text.trim_trim,
        if_neg visible]

end Reference

namespace Html

theorem render_link {own info : Record} (url text : String) (h : Node.attrsOf info = .ok own)
    (tight : Bool) :
    render tight (.branch (.link url none) [Node.ofText text] info) =
      .ok (element "a" (attributes (Record.merge [(.str "href", .str url)] own)) (escape text)) := by
  have content : renderAll tight [Node.ofText text] = .ok (escape text) := by
    simp only [renderAll, Node.ofText, render, renderLeaf]
    exact congrArg Except.ok (by simp)
  rw [render, content]
  simp only [nodeAttributes, h, titleAttr]
  rfl

end Html

namespace Stage

open Html StageM RawMarkup

variable {o : Options} {inLink : Bool} {info : Record} {run : Run}

namespace Links

theorem render_linkNode (r : LinkResolution) (tight : Bool) :
    render tight (linkNode r) = .ok r.toHtml := by
  unfold linkNode
  split
  · rw [Node.generatedInline, render, renderLeaf]
  · next found =>
      rw [render_link _ _ rfl, LinkResolution.toHtml, if_neg found]
      refine congrArg Except.ok (String.ext ?_)
      simp [element, attributes, Record.merge, formatAttribute, attributeText, Value.text]

theorem visit_wikiLink {ref : Reference} {found : LinkResolution} {s : Run}
    (linked : ref.embedded = false)
    (h : (resolveM (trimText ref.target) (trimPart ref.anchor) (trimPart ref.label) o).outcome run =
      (.ok found, s)) :
    (visit o inLink (.leaf (.wikiLink ref) info)).outcome run = (.ok (some (linkNode found)), s) := by
  change (some <$> replace ref o).outcome run = _
  have replaced : (replace ref o).outcome run = (.ok (linkNode found), s) := by
    unfold replace
    dsimp only
    rw [if_neg (by rw [linked]; exact Bool.false_ne_true), outcome_bind_ok h]
    rfl
  rw [map_eq_bind, outcome_bind_ok replaced]
  rfl

theorem rendered_reference (ref : Reference) (linked : ref.embedded = false) :
    ∃ n s, (visit o inLink (.leaf (.wikiLink ref) info)).outcome run = (.ok (some n), s) ∧
      s.context = run.context ∧
      ∀ tight, render tight n = .ok (resolve (trimText ref.target) (trimPart ref.anchor)
        (trimPart ref.label) run.context o).toHtml := by
  obtain ⟨s, hs, kept⟩ := resolveM_outcome (o := o) (trimText ref.target) (trimPart ref.anchor)
    (trimPart ref.label) run
  exact ⟨_, s, visit_wikiLink linked hs, kept, render_linkNode _⟩

/-- What the parser has read is trimmed already, so its source gets the same anchor in raw markup. -/
theorem rendered_source {text : String} {ref : Reference} (parsed : Reference.parse? text = some ref)
    (linked : ref.embedded = false) :
    ∃ n s html, (visit o inLink (.leaf (.wikiLink ref) info)).outcome run = (.ok (some n), s) ∧
      (∀ tight, render tight n = .ok html) ∧
      (resolveLinks o text.toList).outcome run = (.ok html.toList, s) := by
  obtain ⟨src, wellFormed, same, rfl⟩ := Reference.parse?_eq_some_iff.mp parsed
  have target : trimText (Reference.ofSource src).target = (Reference.ofSource src).target := by
    simp [trimText, Reference.ofSource, Text.trim_trim]
  have anchor : trimPart (Reference.ofSource src).anchor = (Reference.ofSource src).anchor :=
    Reference.trimPart_part? _
  have label : trimPart (Reference.ofSource src).label = (Reference.ofSource src).label :=
    Reference.trimPart_part? _
  obtain ⟨s, hs, -⟩ := resolveM_outcome (o := o) (Reference.ofSource src).target
    (Reference.ofSource src).anchor (Reference.ofSource src).label run
  refine ⟨_, s, _, visit_wikiLink linked (by rw [target, anchor, label]; exact hs),
    render_linkNode _, ?_⟩
  have replaced : (replaceReference o (.reference (Reference.ofSource src) src.written)).outcome run =
      (.ok (resolve (Reference.ofSource src).target (Reference.ofSource src).anchor
        (Reference.ofSource src).label run.context o).toHtml.toList, s) := by
    unfold replaceReference
    dsimp only
    rw [if_neg (by rw [linked]; exact Bool.false_ne_true), outcome_bind_ok hs]
    rfl
  rw [same]
  exact resolveLinks_single (Reference.pieces_written wellFormed) replaced

end Links

namespace Tags

theorem render_linkNode (c : Context) (slug : String) (tight : Bool) :
    render tight (linkNode c slug) = .ok (linkMarkup c slug) := by
  have merged : Record.merge [(.str "href", .str (c.tagUrl slug))]
      [(.str "class", .list [.str "tag-link"])] =
      [(.str "href", .str (c.tagUrl slug)), (.str "class", .list [.str "tag-link"])] := rfl
  have plain : escape "tag-link" = "tag-link" := rfl
  have own : Node.attrsOf [(Node.attrsKey, .map [(.str "class", .list [.str "tag-link"])])] =
      .ok [(.str "class", .list [.str "tag-link"])] := rfl
  unfold linkNode linkMarkup
  rw [render_link _ _ own, merged]
  refine congrArg Except.ok (String.ext ?_)
  simp [element, attributes, formatAttribute, attributeText, Value.text, plain]

/-- A value holds nothing that markup writes in another way. -/
theorem escape_value {value : List Char} (h : TagText.IsValue value) :
    escape ("#" ++ String.ofList value) = String.ofList ('#' :: value) := by
  have plain : ∀ c ∈ '#' :: value, escapeChar c = [c] := by
    intro c hc
    have ne (d : Char) (other : d ≠ '#' ∧ TagText.isTagChar d = false ∧ d ≠ '/') :
        (c == d) = false := by
      rw [beq_eq_false_iff_ne]
      rintro rfl
      exact h.not_mem_tag other hc
    simp only [escapeChar, ne '&' (by decide), ne '<' (by decide), ne '>' (by decide),
      ne '"' (by decide), ne '\'' (by decide), Bool.false_eq_true, if_false]
  have same : ("#" ++ String.ofList value).toList = '#' :: value := by simp
  rw [escape, same, escapeChars_eq_self plain]

/-- A tag gets the same markup in the tree and in raw markup, and both record it in the same way. -/
theorem rendered_tag (o : Options) (info : Record) (run : Run) {value : List Char}
    (h : TagText.IsValue value) :
    ∃ n s html, (visit o false (.leaf (.tag (String.ofList value)) info)).outcome run =
        (.ok (some n), s) ∧
      (∀ tight, render tight n = .ok html) ∧
      (replaceTag (.tag value)).outcome run = (.ok html.toList, s) := by
  have visited {n : Node} {s : Run}
      (hn : (replace false (String.ofList value)).outcome run = (.ok n, s)) :
      (visit o false (.leaf (.tag (String.ofList value)) info)).outcome run = (.ok (some n), s) := by
    change (some <$> replace false (String.ofList value)).outcome run = _
    rw [map_eq_bind, outcome_bind_ok hn]
    rfl
  cases numeric : TagText.isNumeric (String.ofList value) with
  | true =>
      refine ⟨Node.ofText ("#" ++ String.ofList value), run, String.ofList ('#' :: value),
        visited ?_, fun tight => ?_, ?_⟩
      · rw [replace, numeric]
        rfl
      · rw [Node.ofText, render, renderLeaf, escape_value h]
      · rw [replaceTag, if_pos numeric, String.toList_ofList]
        rfl
  | false =>
      obtain ⟨s, hs, -⟩ := register_outcome (String.ofList value) run
      refine ⟨linkNode s.context (Slug.ofTag (String.ofList value)), s, _, visited ?_,
        render_linkNode _ _, ?_⟩
      · rw [replace, numeric]
        rw [if_neg (by simp), outcome_bind_ok hs, outcome_bind_ok (outcome_context s)]
        rfl
      · unfold replaceTag
        dsimp only
        rw [if_neg (by simp [numeric]), outcome_bind_ok hs, outcome_bind_ok (outcome_context s)]
        rfl

end Tags

/-- The tree and raw markup agree on every reference that is not embedded and on every tag outside
links. -/
theorem paths_agree (o : Options) (inLink : Bool) (info : Record) (run : Run) :
    (∀ ref : Reference, ref.embedded = false →
      ∃ n s, (Links.visit o inLink (.leaf (.wikiLink ref) info)).outcome run = (.ok (some n), s) ∧
        s.context = run.context ∧
        ∀ tight, render tight n = .ok (Links.resolve (Links.trimText ref.target)
          (Links.trimPart ref.anchor) (Links.trimPart ref.label) run.context o).toHtml) ∧
    (∀ text ref, Reference.parse? text = some ref → ref.embedded = false →
      ∃ n s html, (Links.visit o inLink (.leaf (.wikiLink ref) info)).outcome run =
          (.ok (some n), s) ∧
        (∀ tight, render tight n = .ok html) ∧
        (resolveLinks o text.toList).outcome run = (.ok html.toList, s)) ∧
    (∀ value, TagText.IsValue value →
      ∃ n s html, (Tags.visit o false (.leaf (.tag (String.ofList value)) info)).outcome run =
          (.ok (some n), s) ∧
        (∀ tight, render tight n = .ok html) ∧
        (replaceTag (.tag value)).outcome run = (.ok html.toList, s) ∧
        (resolveTags ('#' :: value)).outcome run = (.ok html.toList, s)) := by
  refine ⟨Links.rendered_reference, fun _ _ => Links.rendered_source, fun value h => ?_⟩
  obtain ⟨n, s, html, visited, rendered, replaced⟩ := Tags.rendered_tag o info run h
  have split : TagText.split? ('#' :: value) = some (value, []) := TagText.splitValue?_whole h
  have whole : TagText.pieces true ('#' :: value) = [.tag value] := by
    rw [TagText.pieces_cons_of_split? split, TagText.pieces]
  exact ⟨n, s, html, visited, rendered, replaced, resolveTags_single whole replaced⟩

theorem projectNote_agrees :
    (∃ n s html, (Links.visit Options.defaults false
        (.leaf (.wikiLink ⟨"Some Note", some "Part", some "shown", false⟩) [])).outcome
          ⟨Context.new "notes/a" none, []⟩ = (.ok (some n), s) ∧
      (∀ tight, render tight n = .ok html) ∧
      (resolveLinks Options.defaults "[[Some Note#Part|shown]]".toList).outcome
        ⟨Context.new "notes/a" none, []⟩ = (.ok html.toList, s)) ∧
    (∃ n s html, (Tags.visit Options.defaults false (.leaf (.tag "project/alpha") [])).outcome
          ⟨Context.new "notes/a" none, []⟩ = (.ok (some n), s) ∧
      (∀ tight, render tight n = .ok html) ∧
      (resolveTags "#project/alpha".toList).outcome ⟨Context.new "notes/a" none, []⟩ =
        (.ok html.toList, s)) := by
  have parsed : Reference.parse? "[[Some Note#Part|shown]]" =
      some ⟨"Some Note", some "Part", some "shown", false⟩ := by cbv
  have value : TagText.IsValue "project/alpha".toList := by
    change TagText.IsValue ("project".toList ++ '/' :: "alpha".toList)
    exact .path (by decide) (List.all_eq_true.mp (by decide))
      (.segment (by decide) (List.all_eq_true.mp (by decide)))
  obtain ⟨-, references, tags⟩ := paths_agree Options.defaults false []
    ⟨Context.new "notes/a" none, []⟩
  refine ⟨references _ _ parsed rfl, ?_⟩
  obtain ⟨n, s, html, visited, rendered, -, replaced⟩ := tags _ value
  exact ⟨n, s, html, visited, rendered, replaced⟩

end Stage

end NoteMarkup
