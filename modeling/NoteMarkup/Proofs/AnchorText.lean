import NoteMarkup.Proofs.SlugText
import NoteMarkup.Stage.Links

/-! The anchor element that a reference becomes holds no tag. The parts of a reference keep the mark of
tags out, so the marks of an anchor element are those that a slug and an apostrophe come before, and
each of them follows a character that is not blank. -/

namespace NoteMarkup

namespace Text

variable {c : Char} {s : List Char}

theorem mem_of_mem_trim (h : c ∈ trim s) : c ∈ s := by
  have front := (List.dropWhile_suffix isBlank).subset (List.mem_reverse.mp h)
  exact (List.dropWhile_suffix isBlank).subset (List.mem_reverse.mp front)

end Text

namespace Html

/-- The references that stand for characters in markup. -/
def escapes : List (List Char) :=
  ["&amp;".toList, "&lt;".toList, "&gt;".toList, "&quot;".toList, "&#x27;".toList]

theorem escapeChar_eq (c : Char) : escapeChar c = [c] ∨ escapeChar c ∈ escapes := by
  unfold escapeChar
  split
  · exact .inr (by decide)
  split
  · exact .inr (by decide)
  split
  · exact .inr (by decide)
  split
  · exact .inr (by decide)
  split
  · exact .inr (by decide)
  · exact .inl rfl

theorem visible_escapeChars {s : List Char} (h : ∀ c ∈ s, Text.isBlank c = false) :
    ∀ c ∈ escapeChars s, Text.isBlank c = false := by
  intro c hc
  obtain ⟨d, hd, inside⟩ := List.mem_flatMap.mp hc
  rcases escapeChar_eq d with same | listed
  · rw [same] at inside
    exact List.mem_singleton.mp inside ▸ h d hd
  · have each : escapes.all (fun e => e.all fun d => !Text.isBlank d) = true := by decide
    simpa using List.all_eq_true.mp (List.all_eq_true.mp each _ listed) c inside

end Html

namespace Reference

variable {src : Source} {s : List Char} {t : String}

theorem mem_of_mem_part? (h : part? s = some t) {c : Char} (hc : c ∈ t.toList) : c ∈ s := by
  unfold part? at h
  dsimp only at h
  split at h
  · cases h
  · cases h
    rw [String.toList_ofList] at hc
    exact Text.mem_of_mem_trim hc

/-- A part of a reference that keeps the mark of anchors out. -/
def Markless (p : Option String) : Prop := ∀ t, p = some t → '#' ∉ t.toList

theorem markless_part? (h : '#' ∉ s) : Markless (part? s) := fun _ part mark =>
  h (mem_of_mem_part? part mark)

theorem markless_target (h : src.WellFormed) : '#' ∉ (ofSource src).target.toList := by
  intro mark
  rw [ofSource, String.toList_ofList] at mark
  exact absurd (h.target _ (Text.mem_of_mem_trim mark)) (by decide)

theorem markless_anchor (h : src.WellFormed) : Markless (ofSource src).anchor := by
  refine markless_part? ?_
  rcases h.anchor with none | ⟨marks, name, same, -, someName, areMarks, areName⟩
  · simp [none]
  · have first := head_ne_mark someName areName []
    rw [List.append_nil] at first
    rw [same, Text.dropWhile_append_stop (by simpa using areMarks) first]
    exact fun mark => absurd (areName _ mark) (by decide)

theorem markless_label (h : src.WellFormed) : Markless (ofSource src).label := by
  refine markless_part? ?_
  rcases h.label with none | ⟨body, same | same, inside⟩
  · simp [none, labelText]
  · rw [same]
    exact fun mark => absurd (inside _ mark) (by decide)
  · rw [same]
    exact fun mark => absurd (inside _ mark) (by decide)

end Reference

namespace TagText

open Text

/-- No mark stands where a tag may start. -/
def guarded : Bool → List Char → Bool
  | _, [] => true
  | start, c :: cs => !(start && c == '#') && guarded (isBlank c) cs

variable {start : Bool} {s t : List Char}

theorem guarded_append (start : Bool) (s t : List Char) :
    guarded start (s ++ t) = (guarded start s && guarded (mayStart start s) t) := by
  induction s generalizing start with
  | nil => rfl
  | cons c s ih => rw [List.cons_append, guarded, guarded, ih, mayStart_cons, Bool.and_assoc]

theorem not_occursFrom_of_guarded (h : guarded start s = true) : ¬ OccursFrom start s := by
  rintro ⟨before, value, after, rfl, starts, -⟩
  rw [guarded_append, starts, guarded, Bool.true_and] at h
  simp at h

theorem guarded_of_not_mem (h : '#' ∉ s) (start : Bool) : guarded start s = true := by
  induction s generalizing start with
  | nil => rfl
  | cons c s ih =>
      obtain ⟨first, later⟩ := not_or.mp (mt List.mem_cons.mpr h)
      rw [guarded, ih later, beq_eq_false_iff_ne.mpr (Ne.symm first), Bool.and_false]
      rfl

/-- Markup writes an apostrophe with a mark, which follows another character. -/
theorem guarded_escapeChars (h : '#' ∉ s) (start : Bool) :
    guarded start (Html.escapeChars s) = true := by
  induction s generalizing start with
  | nil => rfl
  | cons c s ih =>
      obtain ⟨first, later⟩ := not_or.mp (mt List.mem_cons.mpr h)
      have char : guarded start (Html.escapeChar c) = true := by
        rcases Html.escapeChar_eq c with same | listed
        · exact same ▸ guarded_of_not_mem (by simpa using first) start
        · exact (by decide : ∀ e ∈ Html.escapes, ∀ b, guarded b e = true) _ listed start
      change guarded start (Html.escapeChar c ++ Html.escapeChars s) = true
      rw [guarded_append, char, ih later, Bool.true_and]

theorem mayStart_of_visible (h : ∀ c ∈ s, isBlank c = false) : mayStart false s = false := by
  cases last : s.getLast? with
  | none => rw [mayStart, last]; rfl
  | some c =>
      rw [mayStart, last]
      exact h c (List.mem_of_getLast? last)

end TagText

namespace Stage

open Html TagText

variable {o : Options} {c : Context}

namespace Links

theorem firstText_eq (texts : List (Option String)) :
    firstText texts = "" ∨ some (firstText texts) ∈ texts := by
  unfold firstText
  cases found : (texts.filterMap id).find? fun t => !t.isEmpty with
  | none => exact .inl rfl
  | some t =>
      have member := List.mem_of_find?_eq_some found
      exact .inr (by simpa using member)

theorem markless_firstText {texts : List (Option String)}
    (h : ∀ p ∈ texts, Reference.Markless p) : '#' ∉ (firstText texts).toList := by
  rcases firstText_eq texts with same | member
  · rw [same]
    simp
  · exact h _ member _ rfl

theorem markless_some {t : String} (h : '#' ∉ t.toList) : Reference.Markless (some t) := by
  rintro _ ⟨⟩
  exact h

/-- An address is a slug, which holds no mark and no blank, and an anchor after its mark. -/
theorem guarded_address {slug place : String} (plain : ∀ c ∈ slug.toList, Slug.IsPlain c)
    (h : place = "" ∨ ∃ a : String, place = "#" ++ a ∧ '#' ∉ a.toList) :
    guarded false (escapeChars (slug ++ place).toList) = true := by
  have markless : '#' ∉ slug.toList := fun mark => (plain _ mark).other (by decide)
  have visible := mayStart_of_visible (visible_escapeChars fun c hc => (plain c hc).visible)
  rw [String.toList_append, escapeChars, List.flatMap_append, ← escapeChars, ← escapeChars,
    guarded_append, guarded_escapeChars markless, visible, Bool.true_and]
  rcases h with rfl | ⟨a, rfl, ha⟩
  · rfl
  · rw [String.toList_append]
    change guarded false ('#' :: escapeChars a.toList) = true
    rw [guarded, guarded_escapeChars ha]
    rfl

/-- Neither the text of a resolution nor its address has a mark where a tag may start. -/
theorem resolve_guarded {target : String} {anchor label : Option String} (ht : '#' ∉ target.toList)
    (ha : Reference.Markless anchor) (hl : Reference.Markless label) :
    '#' ∉ (resolve target anchor label c o).text.toList ∧
      guarded false (escapeChars ((resolve target anchor label c o).url.getD "").toList) = true := by
  unfold resolve
  split
  · refine ⟨markless_firstText ?_, guarded_escapeChars ht false⟩
    simp only [List.mem_cons, List.not_mem_nil, or_false]
    rintro p (rfl | rfl)
    · exact hl
    · exact markless_some ht
  · have text : '#' ∉ (firstText [label, some target, anchor]).toList := by
      refine markless_firstText ?_
      simp only [List.mem_cons, List.not_mem_nil, or_false]
      rintro p (rfl | rfl | rfl)
      · exact hl
      · exact markless_some ht
      · exact ha
    have slug : ∀ c ∈ (if target.isEmpty then "" else Slug.ofTarget target).toList,
        Slug.IsPlain c := by
      split
      · simp
      · intro c hc
        exact Slug.isPlain_of_mem_page hc
    dsimp only
    generalize (if target.isEmpty then "" else Slug.ofTarget target) = slug at slug
    split
    · exact ⟨text, rfl⟩
    · refine ⟨text, guarded_address slug ?_⟩
      cases anchor with
      | none => exact .inl rfl
      | some a =>
          dsimp only
          split
          · exact .inl rfl
          · exact .inr ⟨a, rfl, ha a rfl⟩

/-- The anchor element of a reference holds no tag. -/
theorem toHtml_not_occurs {target : String} {anchor label : Option String} (ht : '#' ∉ target.toList)
    (ha : Reference.Markless anchor) (hl : Reference.Markless label) :
    ¬ Occurs (resolve target anchor label c o).toHtml.toList := by
  obtain ⟨text, address⟩ := resolve_guarded (c := c) (o := o) ht ha hl
  refine not_occursFrom_of_guarded ?_
  have closing (start : Bool) : guarded start "</a>".toList = true :=
    guarded_of_not_mem (by decide) start
  unfold LinkResolution.toHtml
  split
  · have opening : guarded true "<a class=\"internal broken\">".toList = true := by decide
    simp only [String.toList_append, guarded_append, escape, String.toList_ofList, opening,
      guarded_escapeChars text, closing, Bool.and_true]
  · have opening : guarded true "<a href=\"".toList = true := by decide
    have quoted : mayStart true "<a href=\"".toList = false := by decide
    have closed (start : Bool) : guarded start "\">".toList = true :=
      guarded_of_not_mem (by decide) start
    simp only [String.toList_append, guarded_append, escape, String.toList_ofList, opening, quoted,
      address, closed, guarded_escapeChars text, closing, Bool.and_true]

end Links

end Stage

end NoteMarkup
