import Mathlib
import NoteMarkup.Markdown.Inline.Reader
import NoteMarkup.Proofs.ReferenceSyntax

/-! References in raw markup and references in running text. Raw markup is scanned by the grammar
alone. The reader of running text takes a bracketed text on one line and then asks whether it names
a note or a place, so it leaves some of what the scan finds as text. -/

namespace NoteMarkup

namespace Reference

/-- A reference names a note or a place. -/
def Names (r : Reference) : Prop := r.target ≠ "" ∨ r.anchor ≠ none

theorem part?_ne_some_empty (s : List Char) : part? s ≠ some "" := by
  unfold part?
  dsimp only
  split
  · nofun
  · next visible =>
      intro same
      have empty : String.ofList (Text.trim s) = "" := Option.some.inj same
      rw [← String.ofList_nil, String.ofList_inj] at empty
      exact visible (by rw [empty]; rfl)

end Reference

namespace Markdown

open Reference Text

variable {src : Source} {rest : List Char}

theorem isReferenceChar_of_mem_body {c : Char} (h : src.WellFormed) (hc : c ∈ src.body)
    (inLine : c ≠ '\n') : isReferenceChar c = true := by
  simp [isReferenceChar, (h.ne_bracket hc).1, (h.ne_bracket hc).2, inLine]

theorem lineFeed_mem_written (src : Source) : '\n' ∈ src.written ↔ '\n' ∈ src.body := by
  cases embedded : src.embedded <;> simp [Source.written, embedded]

theorem referenceSource?_of_oneLine (h : src.WellFormed) (oneLine : '\n' ∉ src.written)
    (rest : List Char) : referenceSource? (src.written ++ rest) = some (src.written, rest) := by
  have inside : ∀ c ∈ src.body, isReferenceChar c = true := by
    intro c hc
    refine isReferenceChar_of_mem_body h hc ?_
    rintro rfl
    exact oneLine ((lineFeed_mem_written src).mpr hc)
  have stop : ∀ c, (']' :: ']' :: rest).head? = some c → isReferenceChar c = false := by
    rintro _ ⟨⟩
    decide
  have taken := takeWhile_append_stop inside stop
  have left := dropWhile_append_stop inside stop
  cases embedded : src.embedded <;>
    simp [Source.written, embedded, referenceSource?, taken, left]

/-- Of a reference on several lines it takes nothing: it stops at the first line feed. -/
theorem referenceSource?_of_broken (h : src.WellFormed) (broken : '\n' ∈ src.written)
    (rest : List Char) : referenceSource? (src.written ++ rest) = none := by
  obtain ⟨front, back, whole, first⟩ :=
    List.eq_append_cons_of_mem ((lineFeed_mem_written src).mp broken)
  have inside : ∀ c ∈ front, isReferenceChar c = true := by
    intro c hc
    refine isReferenceChar_of_mem_body h (by simp [whole, hc]) ?_
    rintro rfl
    exact first hc
  have stop : ∀ c, ('\n' :: (back ++ ']' :: ']' :: rest)).head? = some c →
      isReferenceChar c = false := by
    rintro _ ⟨⟩
    decide
  have left := dropWhile_append_stop inside stop
  cases embedded : src.embedded <;>
    simp [Source.written, embedded, whole, referenceSource?, left]

/-- Of what the reader takes it keeps the references that name something. -/
theorem referenceOf?_written (h : src.WellFormed) (r : Reference) :
    referenceOf? src.written = some r ↔ r = ofSource src ∧ (ofSource src).Names := by
  have parsed : parse? (String.ofList src.written) = some (ofSource src) :=
    parse?_eq_some_iff.mpr ⟨src, h, String.toList_ofList, rfl⟩
  have anchor : ((ofSource src).anchor.getD "").isEmpty = true ↔ (ofSource src).anchor = none := by
    cases part : (ofSource src).anchor with
    | none => simp
    | some a =>
        have visible : a ≠ "" := by
          rintro rfl
          exact part?_ne_some_empty _ part
        simpa using visible
  rw [referenceOf?, parsed, Option.bind_some]
  split
  · next blank =>
      rw [Bool.and_eq_true, anchor, String.isEmpty_iff] at blank
      simp [Names, blank.1, blank.2]
  · next named =>
      rw [Bool.and_eq_true, anchor, String.isEmpty_iff, not_and_or] at named
      constructor
      · intro same
        exact ⟨(Option.some.inj same).symm, named⟩
      · rintro ⟨same, -⟩
        rw [same]

theorem add_reference_inj {s : Scan} {r r' : Reference}
    (h : s.add (.reference r) = s.add (.reference r')) : r = r' := by
  have pieces := congrArg Scan.pieces h
  simp only [Scan.add, List.cons.injEq, Piece.item.injEq, Inline.reference.injEq, and_true] at pieces
  exact pieces

theorem opening?_written {set : Setting} (on : set.dialect.references = true) (h : src.WellFormed)
    (s : Scan) (r : Reference) :
    opening? set s src.written = some (s.add (.reference r), []) ↔
      '\n' ∉ src.written ∧ referenceOf? src.written = some r := by
  by_cases broken : '\n' ∈ src.written
  · -- a bracket is opened, and the rest of the source is still to be read
    have none := referenceSource?_of_broken h broken []
    rw [List.append_nil] at none
    unfold opening?
    rw [if_pos on, none]
    refine ⟨?_, fun h => (h.1 broken).elim⟩
    cases embedded : src.embedded <;> simp [Source.written, embedded]
  · have whole := referenceSource?_of_oneLine h broken []
    rw [List.append_nil] at whole
    unfold opening?
    rw [if_pos on, whole]
    dsimp only
    rw [Option.map_eq_some_iff, and_iff_right broken]
    constructor
    · rintro ⟨r', read, added⟩
      rw [read, add_reference_inj (congrArg Prod.fst added)]
    · intro read
      exact ⟨r, read, rfl⟩

/-- The reader of running text reads what the scan of raw markup finds as the same reference exactly
if it stands on one line and names something. -/
theorem reads_found_iff (html source : List Char) (r : Reference) (set : Setting) (s : Scan)
    (on : set.dialect.references = true) (found : Piece.reference r source ∈ pieces html) :
    (referenceSource? source = some (source, []) ↔ '\n' ∉ source) ∧
      (∀ r', referenceOf? source = some r' ↔ r' = r ∧ r.Names) ∧
      (opening? set s source = some (s.add (.reference r), []) ↔ '\n' ∉ source ∧ r.Names) := by
  obtain ⟨src, wellFormed, rfl, rfl⟩ : ∃ src : Source, src.WellFormed ∧
      ofSource src = r ∧ src.written = source := by
    cases pieces_found html _ found with
    | reference wellFormed => exact ⟨_, wellFormed, rfl, rfl⟩
  refine ⟨?_, fun r' => referenceOf?_written wellFormed r', ?_⟩
  · by_cases broken : '\n' ∈ src.written
    · have none := referenceSource?_of_broken wellFormed broken []
      rw [List.append_nil] at none
      simp [none, broken]
    · have whole := referenceSource?_of_oneLine wellFormed broken []
      rw [List.append_nil] at whole
      simp [whole, broken]
  · rw [opening?_written on wellFormed, referenceOf?_written wellFormed]
    simp

/-- The reader with every mark of the dialect. -/
def fullSetting : Setting := ⟨⟨true, true, true, true⟩, []⟩

def titledLink : List Char := "[[Some Note#Part|shown]]".toList

theorem titledLink_read :
    ∃ r, Piece.reference r titledLink ∈ pieces ("<p>".toList ++ titledLink ++ "</p>".toList) ∧
      opening? fullSetting (.start false) titledLink =
        some ((Scan.start false).add (.reference r), []) := by
  have scanned : pieces ("<p>".toList ++ titledLink ++ "</p>".toList) =
      [.gap ['<'], .gap ['p'], .gap ['>'],
        .reference ⟨"Some Note", some "Part", some "shown", false⟩ titledLink,
        .gap ['<'], .gap ['/'], .gap ['p'], .gap ['>']] := by
    cbv
  have found : Piece.reference ⟨"Some Note", some "Part", some "shown", false⟩ titledLink ∈
      pieces ("<p>".toList ++ titledLink ++ "</p>".toList) := by
    rw [scanned]
    simp
  refine ⟨_, found, ?_⟩
  exact (reads_found_iff _ _ _ fullSetting (.start false) rfl found).2.2.mpr
    ⟨by decide, .inl (by decide)⟩

/-- The scan finds empty brackets, and a target with a line feed, and the reader takes neither. -/
theorem emptyReference_unread :
    (∃ r, r.embedded = false ∧ Piece.reference r "[[]]".toList ∈ pieces "[[]]".toList ∧
      referenceOf? "[[]]".toList = none) ∧
    (∃ r, r.embedded = false ∧ Piece.reference r "[[a\nb]]".toList ∈ pieces "[[a\nb]]".toList ∧
      referenceSource? "[[a\nb]]".toList = none) := by
  have empty : pieces "[[]]".toList = [.reference ⟨"", none, none, false⟩ "[[]]".toList] := by cbv
  have broken : pieces "[[a\nb]]".toList =
      [.reference ⟨"a\nb", none, none, false⟩ "[[a\nb]]".toList] := by
    cbv
  refine ⟨⟨⟨"", none, none, false⟩, rfl, ?_, by cbv⟩,
    ⟨⟨"a\nb", none, none, false⟩, rfl, ?_, by cbv⟩⟩
  · rw [empty]
    exact List.mem_singleton.mpr rfl
  · rw [broken]
    exact List.mem_singleton.mpr rfl

end Markdown

end NoteMarkup
