import Mathlib
import NoteMarkup.Highlight
import NoteMarkup.Proofs.ReferenceSyntax
import NoteMarkup.TagText

/-! The grammars of tags and highlights, and where they occur in a text. A scan from left to right
finds one exactly if one occurs anywhere: what it passes over on the way hides none. -/

namespace NoteMarkup

namespace Text

theorem mem_of_covers {rs : Ranges} {n : Nat} (h : rs.covers n = true) :
    ∃ r ∈ rs, r.1 ≤ n ∧ n ≤ r.2 := by
  simpa [Ranges.covers, List.any_eq_true] using h

theorem isAlphanum_of_le {c : Char} (h : c.toNat ≤ 32) : c.isAlphanum = false := by
  have low : c.val ≤ 32 := UInt32.le_iff_toNat_le.mpr h
  rw [Bool.eq_false_iff]
  simp only [Char.isAlphanum, Char.isAlpha, Char.isUpper, Char.isLower, Char.isDigit]
  grind

theorem isWord_of_isBlank {c : Char} (h : isBlank c = true) : isWord c = false ∧ c ≠ '-' := by
  obtain ⟨r, listed, low, high⟩ := mem_of_covers h
  have groups : ∀ r ∈ blankRanges, r.2 ≤ 32 ∨ 133 ≤ r.1 := by decide
  have apart : ∀ r ∈ blankRanges, ∀ w ∈ wordRanges, r.2 < w.1 ∨ w.2 < r.1 := by decide +kernel
  have place : c.toNat ≤ 32 ∨ 133 ≤ c.toNat := (groups r listed).imp (by omega) (by omega)
  refine ⟨?_, ?_⟩
  · unfold isWord
    split
    · next ascii =>
        have small : c.toNat < 128 := UInt32.lt_iff_toNat_lt.mp ascii
        have control : c.toNat ≤ 32 := place.resolve_right (by omega)
        have other : c ≠ '_' := by
          rintro rfl
          exact absurd control (by decide)
        simp [isAlphanum_of_le control, other]
    · rw [Bool.eq_false_iff]
      intro covered
      obtain ⟨w, member, least, most⟩ := mem_of_covers covered
      have := apart r listed w member
      omega
  · rintro rfl
    exact absurd place (by decide)

end Text

namespace TagText

open Text

/-- The values of tags: segments between slashes. -/
inductive IsValue : List Char → Prop
  | segment {s} : s ≠ [] → (∀ c ∈ s, isTagChar c = true) → IsValue s
  | path {s v} : s ≠ [] → (∀ c ∈ s, isTagChar c = true) → IsValue v → IsValue (s ++ '/' :: v)

variable {s rest value : List Char}

theorem isTagChar_slash : isTagChar '/' = false := by decide

theorem isBlank_of_isTagChar {c : Char} (h : isTagChar c = true) : isBlank c = false := by
  rw [Bool.eq_false_iff]
  intro blank
  obtain ⟨word, hyphen⟩ := isWord_of_isBlank blank
  simp [isTagChar, word, hyphen] at h

theorem IsValue.ne_nil (h : IsValue value) : value ≠ [] := by
  cases h with
  | segment some => exact some
  | path => simp

theorem IsValue.mem (h : IsValue value) {c : Char} (hc : c ∈ value) :
    isTagChar c = true ∨ c = '/' := by
  induction h with
  | segment _ chars => exact .inl (chars c hc)
  | path _ chars _ ih =>
      rcases List.mem_append.mp hc with first | later
      · exact .inl (chars c first)
      · exact (List.mem_cons.mp later).elim .inr ih

theorem IsValue.not_mem_tag (h : IsValue value) {d : Char}
    (other : d ≠ '#' ∧ isTagChar d = false ∧ d ≠ '/') : d ∉ '#' :: value := by
  intro member
  rcases List.mem_cons.mp member with mark | inside
  · exact other.1 mark
  · rcases h.mem inside with tagChar | slash
    · exact absurd tagChar (by simp [other.2.1])
    · exact other.2.2 slash

/-- After a slash a value goes on as a value starts. -/
theorem splitSegments_slash (s : List Char) :
    splitSegments ('/' :: s) =
      match splitValue? s with
      | some (v, rest) => ('/' :: v, rest)
      | none => ([], '/' :: s) := by
  rw [splitSegments, splitValue?]
  dsimp only
  split <;> rfl

theorem splitSegments_sound (s : List Char) :
    s = (splitSegments s).1 ++ (splitSegments s).2 ∧
      ((splitSegments s).1 = [] ∨ ∃ v, (splitSegments s).1 = '/' :: v ∧ IsValue v) := by
  fun_induction splitSegments s with
  | case1 r segment empty => exact ⟨rfl, .inl rfl⟩
  | case2 r segment some more rest heq ih =>
      rw [heq] at ih
      obtain ⟨whole, further⟩ := ih
      have chars : ∀ c ∈ segment, isTagChar c = true := fun c hc => List.mem_takeWhile_imp hc
      have some : segment ≠ [] := by simpa using some
      have split : r = segment ++ (more ++ rest) := by
        rw [← whole, List.takeWhile_append_dropWhile]
      refine ⟨by rw [List.append_assoc, List.cons_append, ← split], .inr ⟨segment ++ more, rfl, ?_⟩⟩
      rcases further with rfl | ⟨v, rfl, hv⟩
      · rw [List.append_nil]
        exact .segment some chars
      · exact .path some chars hv
  | case3 r other => exact ⟨rfl, .inl rfl⟩

theorem splitValue?_sound (h : splitValue? s = some (value, rest)) :
    IsValue value ∧ s = value ++ rest := by
  have slash := splitSegments_slash s
  have sound := splitSegments_sound ('/' :: s)
  rw [h] at slash
  rw [slash] at sound
  obtain ⟨whole, none | ⟨v, same, hv⟩⟩ := sound
  · cases none
  · cases same
    exact ⟨hv, (List.cons.inj whole).2⟩

/-- The scan takes a value as far as it goes. -/
theorem splitValue?_complete (h : IsValue value) (after : List Char) :
    ∃ ext rest, splitValue? (value ++ after) = some (value ++ ext, rest) := by
  induction h with
  | @segment s some chars =>
      refine ⟨after.takeWhile isTagChar ++ (splitSegments (after.dropWhile isTagChar)).1,
        (splitSegments (after.dropWhile isTagChar)).2, ?_⟩
      simp [splitValue?, List.takeWhile_append_of_pos chars, List.dropWhile_append_of_pos chars, some]
  | @path s v some chars _ ih =>
      obtain ⟨ext, rest, found⟩ := ih
      have stop : ∀ c, ('/' :: (v ++ after)).head? = Option.some c → isTagChar c = false := by
        rintro _ ⟨⟩
        exact isTagChar_slash
      have further : splitSegments ('/' :: (v ++ after)) = ('/' :: (v ++ ext), rest) := by
        rw [splitSegments_slash, found]
      refine ⟨ext, rest, ?_⟩
      rw [List.append_assoc, List.cons_append, splitValue?, takeWhile_append_stop chars stop,
        dropWhile_append_stop chars stop, further]
      simp [some]

theorem splitValue?_whole (h : IsValue value) : splitValue? value = some (value, []) := by
  obtain ⟨ext, rest, found⟩ := splitValue?_complete h []
  rw [List.append_nil] at found
  have same := (splitValue?_sound found).2
  rw [List.append_assoc, List.self_eq_append_right, List.append_eq_nil_iff] at same
  rw [found, same.1, same.2, List.append_nil]

theorem isNumeric_iff (h : IsValue value) :
    isNumeric (String.ofList value) = true ↔ ∀ c ∈ value, c = '/' ∨ isDigit c = true := by
  let p (c : Char) : Bool := c == '/' || isDigit c
  have digits : (∀ c ∈ value, c = '/' ∨ isDigit c = true) ↔ ∀ c ∈ value, p c = true := by
    simp [p]
  have ends : isNumeric (String.ofList value) =
      (!(value.takeWhile p).isEmpty && atTextEnd (value.dropWhile p)) := by
    simp [isNumeric, p]
  rw [digits, ends]
  constructor
  · intro numeric
    have last : atTextEnd (value.dropWhile p) = true := (Bool.and_eq_true_iff.mp numeric).2
    rw [← List.dropWhile_eq_nil_iff]
    unfold atTextEnd at last
    split at last
    · next none => exact none
    · next lineEnd =>
        -- a value holds no line feed
        have inside : '\n' ∈ value :=
          (List.dropWhile_suffix p).subset (lineEnd ▸ List.mem_singleton.mpr rfl)
        rcases h.mem inside with tagChar | slash
        · exact absurd tagChar (by decide)
        · exact absurd slash (by decide)
    · cases last
  · intro all
    rw [List.takeWhile_eq_self_iff.mpr all, List.dropWhile_eq_nil_iff.mpr all]
    simp [h.ne_nil, atTextEnd]

/-- Whether a tag may start after a text; `start` tells whether one may if the text is empty. -/
def mayStart (start : Bool) (before : List Char) : Bool := (before.getLast?.map isBlank).getD start

/-- A tag that is not a number occurs in a text. -/
def OccursFrom (start : Bool) (s : List Char) : Prop :=
  ∃ before value after, s = before ++ '#' :: (value ++ after) ∧ mayStart start before = true ∧
    IsValue value ∧ isNumeric (String.ofList value) = false

/-- A tag that is not a number occurs in a whole text. -/
abbrev Occurs (s : List Char) : Prop := OccursFrom true s

variable {start : Bool} {c : Char} {cs : List Char}

theorem mayStart_cons (start : Bool) (c : Char) (before : List Char) :
    mayStart start (c :: before) = mayStart (isBlank c) before := by
  cases before with
  | nil => rfl
  | cons d before =>
      have last := List.getLast?_eq_some_getLast (List.cons_ne_nil d before)
      simp only [mayStart, List.getLast?_cons_cons, last, Option.map_some, Option.getD_some]

theorem mayStart_append (start : Bool) (front before : List Char) :
    mayStart start (front ++ before) = mayStart (mayStart start front) before := by
  induction front generalizing start with
  | nil => rfl
  | cons c front ih => rw [List.cons_append, mayStart_cons, ih, mayStart_cons]

theorem OccursFrom.cons (h : OccursFrom (isBlank c) cs) (start : Bool) :
    OccursFrom start (c :: cs) := by
  obtain ⟨before, value, after, rfl, starts, hv⟩ := h
  exact ⟨c :: before, value, after, rfl, (mayStart_cons start c before).trans starts, hv⟩

theorem OccursFrom.append {front : List Char} (h : OccursFrom (mayStart start front) s) :
    OccursFrom start (front ++ s) := by
  induction front generalizing start with
  | nil => exact h
  | cons c front ih => exact (ih (by rwa [mayStart_cons] at h)).cons start

/-- No tag starts inside a value or right after it. -/
theorem mayStart_value (h : IsValue value) (start : Bool) : mayStart start value = false := by
  induction h generalizing start with
  | segment some chars =>
      have last := List.getLast?_eq_some_getLast some
      simp only [mayStart, last, Option.map_some, Option.getD_some]
      exact isBlank_of_isTagChar (chars _ (List.getLast_mem some))
  | path _ _ _ ih => rw [mayStart_append, mayStart_cons, ih]

/-- The characters that a piece is made of. -/
def Piece.source : Piece → List Char
  | .gap c => [c]
  | .tag value => '#' :: value

theorem pieces_cons_of_split? (h : split? s = some (value, rest)) :
    pieces true s = .tag value :: pieces false rest := by
  cases s with
  | nil => cases h
  | cons c cs =>
      rw [pieces]
      split
      · next value' rest' found =>
          rw [if_pos rfl, h] at found
          cases found
          rfl
      · next none => rw [if_pos rfl, h] at none; cases none

theorem pieces_cons_of_none (h : start = true → split? (c :: cs) = none) :
    pieces start (c :: cs) = .gap c :: pieces (isBlank c) cs := by
  rw [pieces]
  split
  · next found =>
      split at found
      · next starts => rw [h starts] at found; cases found
      · cases found
  · rfl

theorem split?_eq_some (h : split? s = some (value, rest)) :
    IsValue value ∧ s = '#' :: (value ++ rest) := by
  unfold split? at h
  split at h
  · obtain ⟨hv, rfl⟩ := splitValue?_sound h
    exact ⟨hv, rfl⟩
  · cases h

/-- Scanning follows the text: a tag at its start, or one character outside tags. -/
theorem pieces_induct {motive : Bool → List Char → Prop} (nil : ∀ start, motive start [])
    (tag : ∀ value rest, IsValue value → split? ('#' :: (value ++ rest)) = some (value, rest) →
      motive false rest → motive true ('#' :: (value ++ rest)))
    (gap : ∀ start c cs, (start = true → split? (c :: cs) = none) → motive (isBlank c) cs →
      motive start (c :: cs)) (start : Bool) (s : List Char) : motive start s := by
  induction start, s using pieces.induct with
  | case1 start => exact nil start
  | case2 start c cs value rest found ih =>
      split at found
      · next starts =>
          obtain ⟨hv, same⟩ := split?_eq_some found
          rw [starts, same]
          exact tag value rest hv (same ▸ found) ih
      · cases found
  | case3 start c cs none ih =>
      refine gap start c cs (fun starts => ?_) ih
      rwa [dif_pos starts] at none

theorem pieces_source (start : Bool) (s : List Char) :
    (pieces start s).flatMap Piece.source = s := by
  induction start, s using pieces_induct with
  | nil start => rw [pieces]; rfl
  | tag value rest hv found ih =>
      rw [pieces_cons_of_split? found, List.flatMap_cons, ih]
      rfl
  | gap start c cs none ih =>
      rw [pieces_cons_of_none none, List.flatMap_cons, ih]
      rfl

theorem isValue_of_mem_pieces (h : .tag value ∈ pieces start s) : IsValue value := by
  induction start, s using pieces_induct with
  | nil start => rw [pieces] at h; cases h
  | tag first rest hv found ih =>
      rw [pieces_cons_of_split? found] at h
      rcases List.mem_cons.mp h with same | later
      · cases same
        exact hv
      · exact ih later
  | gap start c cs none ih =>
      rw [pieces_cons_of_none none] at h
      exact ih ((List.mem_cons.mp h).resolve_left (by rintro ⟨⟩))

/-- The scan finds a tag that is no number exactly if one occurs. -/
theorem exists_tag_iff (start : Bool) (s : List Char) :
    (∃ value, .tag value ∈ pieces start s ∧ isNumeric (String.ofList value) = false) ↔
      OccursFrom start s := by
  induction start, s using pieces_induct with
  | nil start =>
      rw [pieces]
      constructor
      · rintro ⟨_, ⟨⟩, -⟩
      · rintro ⟨before, value, after, none, -⟩
        simp at none
  | tag value rest hv found ih =>
      have apart (start : Bool) : mayStart start ('#' :: value) = false := by
        rw [mayStart_cons, mayStart_value hv]
      rw [pieces_cons_of_split? found]
      constructor
      · rintro ⟨v, member, letters⟩
        rcases List.mem_cons.mp member with first | later
        · cases first
          exact ⟨[], value, rest, rfl, rfl, hv, letters⟩
        · have later := ih.mp ⟨v, later, letters⟩
          rw [← apart true] at later
          exact later.append
      · rintro ⟨before, v, after, same, starts, hv', letters⟩
        cases before with
        | nil =>
            -- the scan takes the longest value, which has the same letters
            obtain ⟨ext, rest', longest⟩ := splitValue?_complete hv' after
            have taken : some (value, rest) = some (v ++ ext, rest') := by
              rw [← found, ← longest, (List.cons.inj same).2]
              rfl
            cases taken
            refine ⟨_, List.mem_cons_self, ?_⟩
            rw [Bool.eq_false_iff] at letters ⊢
            intro numeric
            refine letters ((isNumeric_iff hv').mpr fun c hc => ?_)
            exact (isNumeric_iff hv).mp numeric c (List.mem_append_left _ hc)
        | cons d before =>
            obtain ⟨rfl, tails⟩ := List.cons.inj same
            have later : ∃ b, before = value ++ b ∧ rest = b ++ '#' :: (v ++ after) := by
              rcases List.append_eq_append_iff.mp tails with ⟨b, hb, hrest⟩ | ⟨b, hb, hrest⟩
              · exact ⟨b, hb, hrest⟩
              · cases b with
                | nil => exact ⟨[], by simpa using hb.symm, by simpa using hrest.symm⟩
                | cons e b =>
                    -- a value holds no mark
                    obtain ⟨rfl, -⟩ := List.cons.inj hrest
                    have held : '#' ∈ value := hb ▸ List.mem_append_right _ List.mem_cons_self
                    rcases hv.mem held with tagChar | slash
                    · exact absurd tagChar (by decide)
                    · exact absurd slash (by decide)
            obtain ⟨b, rfl, rfl⟩ := later
            rw [← List.cons_append, mayStart_append, apart] at starts
            obtain ⟨w, member, hw⟩ := ih.mpr ⟨b, v, after, rfl, starts, hv', letters⟩
            exact ⟨w, List.mem_cons_of_mem _ member, hw⟩
  | gap start c cs none ih =>
      rw [pieces_cons_of_none none]
      constructor
      · rintro ⟨v, member, letters⟩
        have later := (List.mem_cons.mp member).resolve_left (by rintro ⟨⟩)
        exact (ih.mp ⟨v, later, letters⟩).cons start
      · rintro ⟨before, v, after, same, starts, hv, letters⟩
        cases before with
        | nil =>
            obtain ⟨ext, rest, longest⟩ := splitValue?_complete hv after
            rw [same, List.nil_append] at none
            cases (none starts).symm.trans longest
        | cons d before =>
            obtain ⟨rfl, rfl⟩ := List.cons.inj same
            rw [mayStart_cons] at starts
            obtain ⟨w, member, hw⟩ := ih.mpr ⟨before, v, after, rfl, starts, hv, letters⟩
            exact ⟨w, List.mem_cons_of_mem _ member, hw⟩

end TagText

namespace Highlight

variable {s content rest : List Char} {c : Char}

/-- A highlight occurs in a text. -/
def Occurs (s : List Char) : Prop :=
  ∃ before c content after, s = before ++ '=' :: '=' :: c :: (content ++ '=' :: '=' :: after) ∧
    c ≠ '=' ∧ c ≠ '\n' ∧ '\n' ∉ content

theorem Occurs.append (h : Occurs s) (front : List Char) : Occurs (front ++ s) := by
  obtain ⟨before, c, content, after, rfl, hc⟩ := h
  exact ⟨front ++ before, c, content, after, (List.append_assoc _ _ _).symm, hc⟩

/-- No two marks stand side by side. -/
def IsSingle (s : List Char) : Prop := s.IsChain fun c d => c ≠ '=' ∨ d ≠ '='

instance (s : List Char) : Decidable (IsSingle s) :=
  inferInstanceAs (Decidable (s.IsChain fun c d => c ≠ '=' ∨ d ≠ '='))

theorem not_isSingle_marks (before after : List Char) :
    ¬ IsSingle (before ++ '=' :: '=' :: after) := by
  intro single
  have marks := (List.isChain_append.mp single).2.1
  simpa using (List.isChain_cons_cons.mp marks).1

theorem Occurs.not_isSingle (h : Occurs s) : ¬ IsSingle s := by
  obtain ⟨before, c, content, after, rfl, -⟩ := h
  exact not_isSingle_marks before _

theorem untilMarks?_sound (h : untilMarks? s = some (content, rest)) :
    s = content ++ '=' :: '=' :: rest ∧ '\n' ∉ content := by
  fun_induction untilMarks? s generalizing content with
  | case1 => cases h
  | case2 r => cases h; exact ⟨rfl, List.not_mem_nil⟩
  | case3 => cases h
  | case4 c cs _ inLine ih =>
      obtain ⟨⟨tail, rest'⟩, found, same⟩ := Option.map_eq_some_iff.mp h
      cases same
      obtain ⟨rfl, oneLine⟩ := ih found
      exact ⟨rfl, List.not_mem_cons_of_ne_of_not_mem (Ne.symm (by simpa using inLine)) oneLine⟩

theorem untilMarks?_complete (oneLine : '\n' ∉ content) (after : List Char) :
    (untilMarks? (content ++ '=' :: '=' :: after)).isSome = true := by
  induction content with
  | nil => rfl
  | cons c content ih =>
      obtain ⟨first, later⟩ := not_or.mp (mt List.mem_cons.mpr oneLine)
      have found := ih later
      rw [List.cons_append, untilMarks?.eq_def]
      split
      · next none => cases none
      · rfl
      · next d ds _ same =>
          obtain ⟨rfl, rfl⟩ := List.cons.inj same
          have inLine : (c == '\n') = false := by simpa using Ne.symm first
          simpa [inLine] using found

theorem split?_eq_some (h : split? s = some (content, rest)) :
    ∃ c tail, content = c :: tail ∧ s = '=' :: '=' :: c :: (tail ++ '=' :: '=' :: rest) ∧
      c ≠ '=' ∧ c ≠ '\n' ∧ '\n' ∉ tail := by
  unfold split? at h
  split at h
  · next c r =>
      split at h
      · cases h
      · next other =>
          simp only [Bool.or_eq_true, beq_iff_eq, not_or] at other
          obtain ⟨⟨tail, rest'⟩, found, same⟩ := Option.map_eq_some_iff.mp h
          cases same
          obtain ⟨rfl, oneLine⟩ := untilMarks?_sound found
          exact ⟨c, tail, rfl, rfl, other.1, other.2, oneLine⟩
  · cases h

theorem isSome_split? (hc : c ≠ '=' ∧ c ≠ '\n') (oneLine : '\n' ∉ content) (after : List Char) :
    (split? ('=' :: '=' :: c :: (content ++ '=' :: '=' :: after))).isSome = true := by
  have other : (c == '=' || c == '\n') = false := by simp [hc]
  rw [split?, other, if_neg Bool.false_ne_true, Option.isSome_map]
  exact untilMarks?_complete oneLine after

/-- The characters that a piece is made of. -/
def Piece.source : Piece → List Char
  | .gap c => [c]
  | .highlight content => '=' :: '=' :: (content ++ ['=', '='])

theorem pieces_cons_of_split? (h : split? s = some (content, rest)) :
    pieces s = .highlight content :: pieces rest := by
  cases s with
  | nil => cases h
  | cons c cs =>
      rw [pieces]
      split
      · next found => rw [h] at found; cases found; rfl
      · next none => rw [h] at none; cases none

theorem pieces_cons_of_none {cs : List Char} (h : split? (c :: cs) = none) :
    pieces (c :: cs) = .gap c :: pieces cs := by
  rw [pieces]
  split
  · next found => rw [h] at found; cases found
  · rfl

/-- Scanning follows the text: a highlight at its start, or one character outside highlights. -/
theorem pieces_induct {motive : List Char → Prop} (nil : motive [])
    (highlight : ∀ content rest,
      split? ('=' :: '=' :: (content ++ '=' :: '=' :: rest)) = some (content, rest) →
      motive rest → motive ('=' :: '=' :: (content ++ '=' :: '=' :: rest)))
    (gap : ∀ c cs, split? (c :: cs) = none → motive cs → motive (c :: cs)) (s : List Char) :
    motive s := by
  induction s using pieces.induct with
  | case1 => exact nil
  | case2 c cs content rest found ih =>
      obtain ⟨d, tail, rfl, same, -⟩ := split?_eq_some found
      rw [same] at found ⊢
      exact highlight (d :: tail) rest found ih
  | case3 c cs none ih => exact gap c cs none ih

theorem pieces_source (s : List Char) : (pieces s).flatMap Piece.source = s := by
  induction s using pieces_induct with
  | nil => rw [pieces]; rfl
  | highlight content rest found ih =>
      rw [pieces_cons_of_split? found, List.flatMap_cons, ih]
      simp [Piece.source]
  | gap c cs none ih =>
      rw [pieces_cons_of_none none, List.flatMap_cons, ih]
      rfl

/-- The scan finds a highlight exactly if one occurs. -/
theorem exists_highlight_iff (s : List Char) :
    (∃ content, .highlight content ∈ pieces s) ↔ Occurs s := by
  induction s using pieces_induct with
  | nil =>
      rw [pieces]
      constructor
      · rintro ⟨_, ⟨⟩⟩
      · rintro ⟨before, c, content, after, none, -⟩
        simp at none
  | highlight content rest found ih =>
      rw [pieces_cons_of_split? found]
      obtain ⟨c, tail, rfl, same, hc⟩ := split?_eq_some found
      exact ⟨fun _ => ⟨[], c, tail, rest, same, hc⟩, fun _ => ⟨_, List.mem_cons_self⟩⟩
  | gap c cs none ih =>
      rw [pieces_cons_of_none none]
      constructor
      · rintro ⟨content, member⟩
        have later := (List.mem_cons.mp member).resolve_left (by rintro ⟨⟩)
        exact (ih.mp ⟨content, later⟩).append [c]
      · rintro ⟨before, d, content, after, same, first, inLine, oneLine⟩
        cases before with
        | nil =>
            rw [same, List.nil_append] at none
            have found := isSome_split? ⟨first, inLine⟩ oneLine after
            rw [none] at found
            cases found
        | cons e before =>
            obtain ⟨rfl, rfl⟩ := List.cons.inj same
            obtain ⟨found, member⟩ := ih.mpr ⟨before, d, content, after, rfl, first, inLine, oneLine⟩
            exact ⟨found, List.mem_cons_of_mem _ member⟩

end Highlight

end NoteMarkup
