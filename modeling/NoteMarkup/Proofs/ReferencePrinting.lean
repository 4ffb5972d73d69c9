import NoteMarkup.Proofs.Escaping
import NoteMarkup.Proofs.ReferenceSyntax
import NoteMarkup.Proofs.RenderedText

/-! A reference that is left in the tree is rendered as its source, which reads back as the same
reference. -/

namespace NoteMarkup

namespace Reference

open Text

/-- A text without blanks at its ends, of characters of a class. -/
structure IsTrimmed (p : Char → Bool) (s : String) : Prop where
  trimmed : trim s.toList = s.toList
  inside : ∀ c ∈ s.toList, p c = true

def IsPart (p : Char → Bool) (part : Option String) : Prop :=
  ∀ s, part = some s → s ≠ "" ∧ IsTrimmed p s

/-- The parts of the reference are such as the grammar has them. -/
structure Writable (r : Reference) : Prop where
  target : IsTrimmed isNameChar r.target
  anchor : IsPart isNameChar r.anchor
  label : IsPart isLabelChar r.label

/-- The source of a reference with a given separator before its label. -/
def sourceWith (separator : String) (r : Reference) : String :=
  (if r.embedded then "!" else "") ++ "[[" ++ r.target ++ r.anchor.elim "" ("#" ++ ·) ++
    r.label.elim "" (separator ++ ·) ++ "]]"

def partsWith (separator : String) (r : Reference) : Source where
  embedded := r.embedded
  target := r.target.toList
  anchor := r.anchor.elim [] fun a => '#' :: a.toList
  label := r.label.elim [] fun l => separator.toList ++ l.toList

variable {separator : String} {r : Reference}

theorem toList_sourceWith (separator : String) (r : Reference) :
    (sourceWith separator r).toList = (partsWith separator r).written := by
  obtain ⟨target, anchor, label, embedded⟩ := r
  cases embedded <;> cases anchor <;> cases label <;>
    simp [sourceWith, partsWith, Source.written, Source.body]

theorem IsPart.isEmpty_eq_false {p : Char → Bool} {s : String} (h : IsPart p (some s)) :
    s.isEmpty = false := by
  rw [Bool.eq_false_iff, Ne, String.isEmpty_iff]
  exact (h s rfl).1

theorem referenceSource_eq_sourceWith (h : r.Writable) :
    Html.referenceSource r = sourceWith "|" r := by
  obtain ⟨target, anchor, label, embedded⟩ := r
  obtain ⟨-, anchorPart, labelPart⟩ := h
  unfold Html.referenceSource sourceWith
  cases anchor with
  | none =>
      cases label with
      | none => rfl
      | some l => simp [labelPart.isEmpty_eq_false]
  | some a =>
      cases label with
      | none => simp [anchorPart.isEmpty_eq_false]
      | some l => simp [anchorPart.isEmpty_eq_false, labelPart.isEmpty_eq_false]

theorem part?_toList {s : String} {p : Char → Bool} (some : s ≠ "") (h : IsTrimmed p s) :
    part? s.toList = Option.some s := by
  unfold part?
  dsimp only
  rw [h.trimmed, if_neg (by simpa using some), String.ofList_toList]

theorem anchorPart_read (separator : String) (h : r.Writable) :
    IsAnchorPart (partsWith separator r).anchor ∧
      part? ((partsWith separator r).anchor.dropWhile (· == '#')) = r.anchor := by
  unfold partsWith
  cases written : r.anchor with
  | none => exact ⟨.inl rfl, rfl⟩
  | some a =>
      obtain ⟨visible, trimmed⟩ := h.anchor a written
      have someName : a.toList ≠ [] := by simpa using visible
      have mark : ∀ c ∈ ['#'], (c == '#') = true := by simp
      have name := head_ne_mark someName trimmed.inside []
      rw [List.append_nil] at name
      refine ⟨.inr ⟨['#'], a.toList, rfl, by decide, someName, by simp, trimmed.inside⟩, ?_⟩
      change part? (List.dropWhile (· == '#') (['#'] ++ a.toList)) = some a
      rw [dropWhile_append_stop mark name, part?_toList visible trimmed]

theorem labelPart_read (mark : separator = "|" ∨ separator = "\\|") (h : r.Writable) :
    IsLabelPart (partsWith separator r).label ∧
      part? (labelText (partsWith separator r).label) = r.label := by
  unfold partsWith
  cases written : r.label with
  | none => exact ⟨.inl rfl, rfl⟩
  | some l =>
      obtain ⟨visible, trimmed⟩ := h.label l written
      have read := part?_toList visible trimmed
      rcases mark with rfl | rfl
      · exact ⟨.inr ⟨l.toList, .inl rfl, trimmed.inside⟩, read⟩
      · exact ⟨.inr ⟨l.toList, .inr rfl, trimmed.inside⟩, read⟩

/-- The source of a reference reads back as the reference, whichever separator it has. -/
theorem parse?_sourceWith (mark : separator = "|" ∨ separator = "\\|") (h : r.Writable) :
    parse? (sourceWith separator r) = some r := by
  obtain ⟨anchorPart, anchor⟩ := anchorPart_read separator h
  obtain ⟨labelPart, label⟩ := labelPart_read mark h
  refine parse?_eq_some_iff.mpr ⟨partsWith separator r, ⟨h.target.inside, anchorPart, labelPart⟩,
    toList_sourceWith separator r, ?_⟩
  have target : String.ofList (trim r.target.toList) = r.target := by
    rw [h.target.trimmed, String.ofList_toList]
  unfold ofSource
  rw [anchor, label]
  change (⟨String.ofList (trim r.target.toList), r.anchor, r.label, r.embedded⟩ : Reference) = r
  rw [target]

/-- What an unresolved reference is rendered as is its source with the five escapes in it. Without
them it reads back as the reference, and so does the source with a `\` before the `|`. -/
theorem rendered_reference_reads_back (tight : Bool) (info : Record) (h : r.Writable) :
    ∃ html, Html.render tight (.leaf (.wikiLink r) info) = .ok html ∧
      Html.unescaped html = sourceWith "|" r ∧
      parse? (Html.unescaped html) = some r ∧
      parse? (sourceWith "\\|" r) = some r := by
  have read : Html.unescaped (Html.escape (Html.referenceSource r)) = sourceWith "|" r := by
    rw [Html.unescaped_escape, referenceSource_eq_sourceWith h]
  refine ⟨Html.escape (Html.referenceSource r), ?_, read, ?_, parse?_sourceWith (.inr rfl) h⟩
  · rw [Html.render, Html.renderLeaf]
  · rw [read]
    exact parse?_sourceWith (.inl rfl) h

/-- No target, and the marks of the grammar and of markup in the other parts. -/
def markedReference : Reference := ⟨"", some "A & \"B\"", some "|x \\| <i>'&lt;'</i>\\", true⟩

theorem markedReference_writable : markedReference.Writable where
  target := ⟨by decide, by simp [markedReference]⟩
  anchor := by
    rintro _ ⟨⟩
    exact ⟨by decide, by decide, List.all_eq_true.mp (by decide)⟩
  label := by
    rintro _ ⟨⟩
    exact ⟨by decide, by decide, List.all_eq_true.mp (by decide)⟩

theorem markedReference_reads_back :
    ∃ html, Html.render false (.leaf (.wikiLink markedReference) []) = .ok html ∧
      parse? (Html.unescaped html) = some markedReference ∧
      parse? "![[#A & \"B\"\\||x \\| <i>'&lt;'</i>\\]]" = some markedReference := by
  obtain ⟨html, rendered, -, read, escaped⟩ :=
    rendered_reference_reads_back false [] markedReference_writable
  exact ⟨html, rendered, read, escaped⟩

end Reference

end NoteMarkup
