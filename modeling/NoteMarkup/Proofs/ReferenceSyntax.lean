import Mathlib.Data.List.TakeWhile
import NoteMarkup.Reference

/-! The grammar of references, as a predicate on their parts. The scanner finds exactly what the
grammar allows, so a reference can be taken out of the text around it and read again. -/

namespace NoteMarkup

namespace Text

variable {p : Char → Bool} {body rest : List Char}

/-- A run of characters ends where the next character is of another class. -/
theorem takeWhile_append_stop (inside : ∀ c ∈ body, p c = true)
    (stop : ∀ c, rest.head? = some c → p c = false) : (body ++ rest).takeWhile p = body := by
  rw [List.takeWhile_append_of_pos inside]
  cases rest with
  | nil => simp
  | cons c cs => simp [stop c rfl]

theorem dropWhile_append_stop (inside : ∀ c ∈ body, p c = true)
    (stop : ∀ c, rest.head? = some c → p c = false) : (body ++ rest).dropWhile p = rest := by
  rw [List.dropWhile_append_of_pos inside]
  cases rest with
  | nil => rfl
  | cons c cs => simp [stop c rfl]

end Text

namespace Reference

open Text

/-- A part with an anchor: at least one mark and a name, unless it does not occur. -/
def IsAnchorPart (s : List Char) : Prop :=
  s = [] ∨ ∃ marks name, s = marks ++ name ∧ marks ≠ [] ∧ name ≠ [] ∧ (∀ c ∈ marks, c = '#') ∧
    ∀ c ∈ name, isNameChar c = true

/-- A part with a label after its separator, unless it does not occur. -/
def IsLabelPart (s : List Char) : Prop :=
  s = [] ∨ ∃ body, (s = '|' :: body ∨ s = '\\' :: '|' :: body) ∧ ∀ c ∈ body, isLabelChar c = true

namespace Source

/-- The parts as the grammar allows them. -/
structure WellFormed (s : Source) : Prop where
  target : ∀ c ∈ s.target, isNameChar c = true
  anchor : IsAnchorPart s.anchor
  label : IsLabelPart s.label

/-- What stands between the brackets. -/
def body (s : Source) : List Char := s.target ++ s.anchor ++ s.label

/-- The reference as it is written. -/
def written (s : Source) : List Char :=
  (if s.embedded then ['!'] else []) ++ '[' :: '[' :: (s.body ++ [']', ']'])

end Source

variable {s rest : List Char} {src : Source}

theorem splitAnchor_sound (s : List Char) :
    IsAnchorPart (splitAnchor s).1 ∧ s = (splitAnchor s).1 ++ (splitAnchor s).2 := by
  unfold splitAnchor
  dsimp only
  split
  · exact ⟨.inl rfl, rfl⟩
  · next occurs =>
      simp only [List.isEmpty_iff, Bool.or_eq_true, not_or] at occurs
      refine ⟨.inr ⟨_, _, rfl, occurs.1, occurs.2, ?_, ?_⟩, ?_⟩
      · intro c hc
        simpa using List.mem_takeWhile_imp hc
      · intro c hc
        exact List.mem_takeWhile_imp hc
      · rw [List.append_assoc, List.takeWhile_append_dropWhile, List.takeWhile_append_dropWhile]

theorem splitLabel_sound (s : List Char) :
    IsLabelPart (splitLabel s).1 ∧ s = (splitLabel s).1 ++ (splitLabel s).2 := by
  unfold splitLabel
  split
  · next r =>
      refine ⟨.inr ⟨_, .inl rfl, fun c hc => List.mem_takeWhile_imp hc⟩, ?_⟩
      rw [List.cons_append, List.takeWhile_append_dropWhile]
  · next r =>
      refine ⟨.inr ⟨_, .inr rfl, fun c hc => List.mem_takeWhile_imp hc⟩, ?_⟩
      rw [List.cons_append, List.cons_append, List.takeWhile_append_dropWhile]
  · exact ⟨.inl rfl, rfl⟩

/-- The marks of an anchor end where its name starts. -/
theorem head_ne_mark {name : List Char} (someName : name ≠ [])
    (areName : ∀ c ∈ name, isNameChar c = true) (rest : List Char) :
    ∀ c, (name ++ rest).head? = some c → (c == '#') = false := by
  cases name with
  | nil => exact (someName rfl).elim
  | cons d name =>
      rintro _ ⟨⟩
      have hd := areName d List.mem_cons_self
      rw [beq_eq_false_iff_ne]
      rintro rfl
      exact absurd hd (by decide)

theorem splitAnchor_complete (h : IsAnchorPart s)
    (stop : ∀ c, rest.head? = some c → isNameChar c = false ∧ c ≠ '#') :
    splitAnchor (s ++ rest) = (s, rest) := by
  have noMark : ∀ c, rest.head? = some c → (c == '#') = false := by
    intro c hc
    simpa using (stop c hc).2
  unfold splitAnchor
  rcases h with rfl | ⟨marks, name, rfl, someMark, someName, areMarks, areName⟩
  · have none : rest.takeWhile (· == '#') = [] := by
      cases rest with
      | nil => rfl
      | cons c cs => simpa using noMark c rfl
    simp [none]
  · have inside : ∀ c ∈ marks, (c == '#') = true := by simpa using areMarks
    have first := head_ne_mark someName areName rest
    have last : ∀ c, rest.head? = some c → isNameChar c = false := fun c hc => (stop c hc).1
    simp only [List.append_assoc, takeWhile_append_stop inside first,
      dropWhile_append_stop inside first, takeWhile_append_stop areName last,
      dropWhile_append_stop areName last]
    rw [if_neg (by simp [someMark, someName])]

theorem splitLabel_complete (h : IsLabelPart s) :
    splitLabel (s ++ ']' :: rest) = (s, ']' :: rest) := by
  have stop : ∀ c, (']' :: rest).head? = some c → isLabelChar c = false := by
    rintro _ ⟨⟩
    decide
  rcases h with rfl | ⟨body, rfl | rfl, inside⟩
  · rfl
  · simp only [List.cons_append, splitLabel, takeWhile_append_stop inside stop,
      dropWhile_append_stop inside stop]
  · simp only [List.cons_append, splitLabel, takeWhile_append_stop inside stop,
      dropWhile_append_stop inside stop]

theorem stop_anchor (h : IsAnchorPart s) (stop : ∀ c, rest.head? = some c → isNameChar c = false) :
    ∀ c, (s ++ rest).head? = some c → isNameChar c = false := by
  rcases h with rfl | ⟨marks, name, rfl, someMark, -, areMarks, -⟩
  · exact stop
  · cases marks with
    | nil => exact (someMark rfl).elim
    | cons d marks =>
        rintro _ ⟨⟩
        rw [areMarks d List.mem_cons_self]
        decide

theorem stop_label (h : IsLabelPart s) (rest : List Char) :
    ∀ c, (s ++ ']' :: rest).head? = some c → isNameChar c = false ∧ c ≠ '#' := by
  rcases h with rfl | ⟨body, rfl | rfl, -⟩ <;> rintro _ ⟨⟩ <;> decide

theorem splitBody?_sound {b : Bool} (h : splitBody? b s = some (src, rest)) :
    src.embedded = b ∧ src.WellFormed ∧ s = src.body ++ ']' :: ']' :: rest := by
  have anchor := splitAnchor_sound (s.dropWhile isNameChar)
  have label := splitLabel_sound (splitAnchor (s.dropWhile isNameChar)).2
  simp only [splitBody?] at h
  split at h
  · next closes =>
      cases h
      refine ⟨rfl, ⟨fun c hc => List.mem_takeWhile_imp hc, anchor.1, label.1⟩, ?_⟩
      calc s = s.takeWhile isNameChar ++ s.dropWhile isNameChar :=
              List.takeWhile_append_dropWhile.symm
        _ = s.takeWhile isNameChar ++ ((splitAnchor (s.dropWhile isNameChar)).1 ++
              (splitAnchor (s.dropWhile isNameChar)).2) := by rw [← anchor.2]
        _ = s.takeWhile isNameChar ++ ((splitAnchor (s.dropWhile isNameChar)).1 ++
              ((splitLabel (splitAnchor (s.dropWhile isNameChar)).2).1 ++ ']' :: ']' :: rest)) := by
            rw [← closes, ← label.2]
        _ = _ := by simp [Source.body]
  · cases h

theorem splitBody?_complete (b : Bool) (h : src.WellFormed) (rest : List Char) :
    splitBody? b (src.body ++ ']' :: ']' :: rest) = some ({ src with embedded := b }, rest) := by
  have label := stop_label h.label (']' :: rest)
  have anchor := stop_anchor h.anchor fun c hc => (label c hc).1
  simp only [splitBody?, Source.body, List.append_assoc, takeWhile_append_stop h.target anchor,
    dropWhile_append_stop h.target anchor, splitAnchor_complete h.anchor label,
    splitLabel_complete h.label]

/-- A reference stands at the start of a text exactly if the grammar allows it there. -/
theorem split?_eq_some_iff :
    split? s = some (src, rest) ↔ src.WellFormed ∧ s = src.written ++ rest := by
  constructor
  · intro h
    unfold split? at h
    split at h
    · obtain ⟨embedded, wellFormed, rfl⟩ := splitBody?_sound h
      exact ⟨wellFormed, by simp [Source.written, embedded]⟩
    · obtain ⟨embedded, wellFormed, rfl⟩ := splitBody?_sound h
      exact ⟨wellFormed, by simp [Source.written, embedded]⟩
    · cases h
  · rintro ⟨wellFormed, rfl⟩
    have read := splitBody?_complete src.embedded wellFormed rest
    obtain ⟨embedded, target, anchor, label⟩ := src
    cases embedded <;> simpa [Source.written, split?] using read

/-- A text is a reference exactly if the grammar allows the whole of it. -/
theorem parse?_eq_some_iff {text : String} {r : Reference} :
    parse? text = some r ↔
      ∃ src : Source, src.WellFormed ∧ text.toList = src.written ∧ ofSource src = r := by
  unfold parse?
  constructor
  · intro h
    split at h
    · next src whole =>
        obtain ⟨wellFormed, same⟩ := split?_eq_some_iff.mp whole
        exact ⟨src, wellFormed, by simpa using same, Option.some.inj h⟩
    · cases h
  · rintro ⟨src, wellFormed, same, rfl⟩
    have whole : split? text.toList = some (src, []) :=
      split?_eq_some_iff.mpr ⟨wellFormed, by simpa using same⟩
    rw [whole]

/-- The characters that a piece is made of. -/
def Piece.source : Piece → List Char
  | .gap text => text
  | .reference _ source => source

/-- A piece as the scan gives it. -/
inductive Piece.Found : Piece → Prop
  | gap (c : Char) : Found (.gap [c])
  | reference {src : Source} : src.WellFormed → Found (.reference (ofSource src) src.written)

theorem pieces_cons_of_split? (h : split? s = some (src, rest)) :
    pieces s = .reference (ofSource src) src.written :: pieces rest := by
  cases s with
  | nil => cases h
  | cons c cs =>
      have same := (split?_eq_some_iff.mp h).2
      rw [pieces]
      split
      · next src' rest' found =>
          rw [h] at found
          cases found
          have length : (c :: cs).length - rest.length = src.written.length := by
            rw [same, List.length_append]
            omega
          rw [length, same, List.take_left]
      · next none => rw [h] at none; cases none

theorem pieces_cons_of_none {c : Char} {cs : List Char} (h : split? (c :: cs) = none) :
    pieces (c :: cs) = .gap [c] :: pieces cs := by
  rw [pieces]
  split
  · next found => rw [h] at found; cases found
  · rfl

theorem pieces_written (h : src.WellFormed) :
    pieces src.written = [.reference (ofSource src) src.written] := by
  have whole : split? src.written = some (src, []) :=
    split?_eq_some_iff.mpr ⟨h, (List.append_nil _).symm⟩
  rw [pieces_cons_of_split? whole, pieces]

/-- Scanning follows the text: a reference at its start, or one character outside references. -/
theorem pieces_induct {motive : List Char → Prop} (nil : motive [])
    (reference : ∀ src rest, src.WellFormed → split? (src.written ++ rest) = some (src, rest) →
      motive rest → motive (src.written ++ rest))
    (gap : ∀ c cs, split? (c :: cs) = none → motive cs → motive (c :: cs)) (s : List Char) :
    motive s := by
  induction s using pieces.induct with
  | case1 => exact nil
  | case2 c cs src rest found ih =>
      obtain ⟨wellFormed, same⟩ := split?_eq_some_iff.mp found
      rw [same] at found ⊢
      exact reference src rest wellFormed found ih
  | case3 c cs none ih => exact gap c cs none ih

theorem pieces_source (s : List Char) : (pieces s).flatMap Piece.source = s := by
  induction s using pieces_induct with
  | nil => rw [pieces]; rfl
  | reference src rest wellFormed found ih =>
      rw [pieces_cons_of_split? found, List.flatMap_cons, ih]
      rfl
  | gap c cs none ih =>
      rw [pieces_cons_of_none none, List.flatMap_cons, ih]
      rfl

theorem pieces_found (s : List Char) : ∀ p ∈ pieces s, p.Found := by
  induction s using pieces_induct with
  | nil =>
      rw [pieces]
      rintro p ⟨⟩
  | reference src rest wellFormed found ih =>
      rw [pieces_cons_of_split? found]
      exact List.forall_mem_cons.mpr ⟨.reference wellFormed, ih⟩
  | gap c cs none ih =>
      rw [pieces_cons_of_none none]
      exact List.forall_mem_cons.mpr ⟨.gap c, ih⟩

variable {c : Char}

theorem IsAnchorPart.mem (h : IsAnchorPart s) (hc : c ∈ s) : c = '#' ∨ isNameChar c = true := by
  rcases h with rfl | ⟨marks, name, rfl, -, -, areMarks, areName⟩
  · cases hc
  · exact (List.mem_append.mp hc).imp (areMarks c) (areName c)

theorem IsLabelPart.mem (h : IsLabelPart s) (hc : c ∈ s) :
    c = '|' ∨ c = '\\' ∨ isLabelChar c = true := by
  rcases h with rfl | ⟨body, rfl | rfl, inside⟩
  · cases hc
  · exact (List.mem_cons.mp hc).imp id fun later => .inr (inside c later)
  · simp only [List.mem_cons] at hc
    rcases hc with rfl | rfl | later
    · exact .inr (.inl rfl)
    · exact .inl rfl
    · exact .inr (.inr (inside c later))

theorem Source.WellFormed.ne_bracket (h : src.WellFormed) (hc : c ∈ src.body) :
    c ≠ '[' ∧ c ≠ ']' := by
  simp only [Source.body, List.mem_append] at hc
  rcases hc with (inTarget | inAnchor) | inLabel
  · have name := h.target c inTarget
    simp only [isNameChar, Bool.and_eq_true, bne_iff_ne] at name
    exact ⟨name.1.1.1.1, name.1.1.1.2⟩
  · rcases h.anchor.mem inAnchor with rfl | name
    · decide
    · simp only [isNameChar, Bool.and_eq_true, bne_iff_ne] at name
      exact ⟨name.1.1.1.1, name.1.1.1.2⟩
  · rcases h.label.mem inLabel with rfl | rfl | label
    · decide
    · decide
    · simp only [isLabelChar, Bool.and_eq_true, bne_iff_ne] at label
      exact ⟨label.1.1, label.1.2⟩

/-- A reference that is not embedded stands in a text. -/
def LinkIn (s : List Char) (src : Source) : Prop :=
  src.WellFormed ∧ src.embedded = false ∧
    ∃ before after, s = before ++ (src.written ++ after) ∧ before.getLast? ≠ some '!'

theorem LinkIn.bracket_mem (h : LinkIn s src) : '[' ∈ s := by
  obtain ⟨-, -, before, after, rfl, -⟩ := h
  simp [Source.written]

theorem Source.getLast?_written (src : Source) : src.written.getLast? = some ']' := by
  have closing : src.written =
      ((if src.embedded then ['!'] else []) ++ '[' :: '[' :: (src.body ++ [']'])) ++ [']'] := by
    simp [Source.written]
  rw [closing, List.getLast?_concat]

theorem Source.written_of_linked (h : src.embedded = false) :
    src.written = '[' :: '[' :: (src.body ++ [']', ']']) := by
  simp [Source.written, h]

/-- After a `!` a reference that is not embedded becomes an embedded one. -/
theorem split?_of_mark (h : src.WellFormed) (linked : src.embedded = false) (rest : List Char) :
    split? ('!' :: (src.written ++ rest)) = some ({ src with embedded := true }, rest) := by
  refine split?_eq_some_iff.mpr ⟨⟨h.target, h.anchor, h.label⟩, ?_⟩
  rw [Source.written_of_linked linked]
  rfl

/-- After the first of two opening brackets no other two stand side by side. -/
theorem no_second_opening {tail before m rest after : List Char} (closed : '[' ∉ tail)
    (some : tail ≠ []) (same : '[' :: '[' :: tail = before ++ m) (later : before ≠ [])
    (inside : m ≠ []) :
    m ++ rest ≠ '[' :: '[' :: after := by
  intro opening
  obtain ⟨d, before, rfl⟩ := List.exists_cons_of_ne_nil later
  have second := (List.cons.inj same).2
  cases before with
  | nil =>
      obtain ⟨e, tail, rfl⟩ := List.exists_cons_of_ne_nil some
      have whole : '[' :: e :: tail = m := second
      rw [← whole] at opening
      have bracket : e = '[' := (List.cons.inj (List.cons.inj opening).2).1
      exact closed (bracket ▸ List.mem_cons_self)
  | cons e before =>
      obtain ⟨c, m, rfl⟩ := List.exists_cons_of_ne_nil inside
      have bracket : c = '[' := (List.cons.inj opening).1
      rw [(List.cons.inj second).2] at closed
      exact closed (bracket ▸ List.mem_append_right before List.mem_cons_self)

/-- Inside a reference none starts but the one that an embedded reference has after its mark. -/
theorem Source.WellFormed.no_link_inside {first : Source} {before m after : List Char}
    (h : first.WellFormed) (linked : src.embedded = false) (same : first.written = before ++ m)
    (tails : m ++ rest = src.written ++ after) (later : before ≠ []) (inside : m ≠ []) :
    before.getLast? = some '!' := by
  have closed : '[' ∉ first.body ++ [']', ']'] := by
    intro member
    rcases List.mem_append.mp member with body | closing
    · exact (h.ne_bracket body).1 rfl
    · exact absurd closing (by decide)
  rw [Source.written_of_linked linked] at tails
  cases embedded : first.embedded with
  | false =>
      rw [Source.written_of_linked embedded] at same
      exact absurd tails (no_second_opening closed (by simp) same later inside)
  | true =>
      obtain ⟨d, before, rfl⟩ := List.exists_cons_of_ne_nil later
      have shape : first.written = '!' :: '[' :: '[' :: (first.body ++ [']', ']']) := by
        simp [Source.written, embedded]
      rw [shape] at same
      obtain ⟨mark, opening⟩ := List.cons.inj same
      cases before with
      | nil => rw [← mark]; rfl
      | cons e before =>
          exact absurd tails
            (no_second_opening closed (by simp) opening (List.cons_ne_nil e before) inside)

/-- The scan finds every reference that stands in a text and is not embedded. -/
theorem mem_pieces_of_linkIn (h : LinkIn s src) :
    .reference (ofSource src) src.written ∈ pieces s := by
  obtain ⟨wellFormed, linked, before, after, same, free⟩ := h
  have here (after : List Char) : split? (src.written ++ after) = some (src, after) :=
    split?_eq_some_iff.mpr ⟨wellFormed, rfl⟩
  induction s using pieces_induct generalizing before with
  | nil =>
      rw [eq_comm, List.append_eq_nil_iff, List.append_eq_nil_iff] at same
      simp [Source.written] at same
  | reference first rest firstFormed found ih =>
      rw [pieces_cons_of_split? found]
      rcases List.append_eq_append_iff.mp same with ⟨m, rfl, tails⟩ | ⟨m, inFirst, tails⟩
      · refine List.mem_cons_of_mem _ (ih m tails fun last => free ?_)
        rw [List.getLast?_append, last]
        rfl
      · by_cases start : before = []
        · rw [same, start, List.nil_append, here] at found
          cases found
          exact List.mem_cons_self
        · by_cases ends : m = []
          · rw [ends, List.nil_append] at tails
            exact List.mem_cons_of_mem _ (ih [] tails.symm (by rintro ⟨⟩))
          · exact absurd (firstFormed.no_link_inside linked inFirst tails.symm start ends) free
  | gap c cs none ih =>
      rw [pieces_cons_of_none none]
      cases before with
      | nil =>
          rw [same, List.nil_append, here] at none
          cases none
      | cons d before =>
          obtain ⟨rfl, tails⟩ := List.cons.inj same
          refine List.mem_cons_of_mem _ (ih before tails fun last => free ?_)
          rw [← List.singleton_append, List.getLast?_append, last]
          rfl

end Reference

end NoteMarkup
