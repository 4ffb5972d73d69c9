import NoteMarkup.ImageLabel
import NoteMarkup.Proofs.MarkSyntax
import NoteMarkup.Proofs.PathSlugs

/-! The grammar of image labels. A size is digits, a cross and digits, with a bar and blanks before it,
and it ends the label. What holds a bar further on is no size, so the text before the last bar is passed
over as a whole, whatever it holds. -/

namespace NoteMarkup

namespace Text

variable {c : Char}

theorem mem_digitRanges_of_isDigit (h : isDigit c = true) :
    ∃ r ∈ digitRanges, r.1 ≤ c.toNat ∧ c.toNat ≤ r.2 := by
  unfold isDigit at h
  split at h
  · refine ⟨(48, 57), by decide, ?_⟩
    simp only [Char.isDigit, Bool.and_eq_true, decide_eq_true_eq] at h
    exact ⟨UInt32.le_iff_toNat_le.mp h.1, UInt32.le_iff_toNat_le.mp h.2⟩
  · exact mem_of_covers h

theorem isBlank_of_isDigit (h : isDigit c = true) : isBlank c = false := by
  rw [Bool.eq_false_iff]
  intro blank
  obtain ⟨r, listed, low, high⟩ := mem_digitRanges_of_isDigit h
  obtain ⟨s, member, least, most⟩ := mem_of_covers blank
  have apart : ∀ r ∈ digitRanges, ∀ s ∈ blankRanges, r.2 < s.1 ∨ s.2 < r.1 := by decide +kernel
  have := apart r listed s member
  omega

end Text

namespace ImageLabel

open Text

/-- Digits, at least one. -/
structure IsNumber (w : List Char) : Prop where
  some : w ≠ []
  digits : ∀ c ∈ w, isDigit c = true

/-- Nothing but digits around at most one cross. -/
inductive IsBare : List Char → Prop where
  | digits {w} (inside : ∀ c ∈ w, isDigit c = true) : IsBare w
  | crossed {w h} (front : ∀ c ∈ w, isDigit c = true) (back : ∀ c ∈ h, isDigit c = true) :
      IsBare (w ++ 'x' :: h)

/-- A size, with the digits of its width and of its height. -/
inductive IsSize : List Char → List Char → List Char → Prop where
  | width {w} (number : IsNumber w) : IsSize w w []
  | crossed {w h} (number : IsNumber w) (digits : ∀ c ∈ h, isDigit c = true) :
      IsSize (w ++ 'x' :: h) w h

variable {s w h alt front : List Char}

theorem IsNumber.head (number : IsNumber w) : ∃ c t, w = c :: t ∧ isDigit c = true := by
  cases w with
  | nil => exact absurd rfl number.some
  | cons c t => exact ⟨c, t, rfl, number.digits c List.mem_cons_self⟩

theorem IsSize.head (size : IsSize s w h) : ∃ c t, s = c :: t ∧ isDigit c = true := by
  cases size with
  | width number => exact number.head
  | crossed number =>
      obtain ⟨c, t, rfl, digit⟩ := number.head
      exact ⟨c, t ++ 'x' :: h, rfl, digit⟩

theorem IsSize.isBare (size : IsSize s w h) : IsBare s := by
  cases size with
  | width number => exact .digits number.digits
  | crossed number digits => exact .crossed number.digits digits

theorem IsBare.mem (bare : IsBare s) {c : Char} (hc : c ∈ s) : isDigit c = true ∨ c = 'x' := by
  cases bare with
  | digits inside => exact .inl (inside c hc)
  | crossed front back =>
      rcases List.mem_append.mp hc with left | right
      · exact .inl (front c left)
      · exact (List.mem_cons.mp right).elim .inr fun right => .inl (back c right)

theorem IsBare.not_mem (bare : IsBare s) {c : Char} (other : ¬(isDigit c = true ∨ c = 'x')) : c ∉ s :=
  fun hc => other (bare.mem hc)

theorem stop_cross (t : List Char) : ∀ c, ('x' :: t).head? = some c → isDigit c = false := by
  rintro _ ⟨⟩
  decide

theorem atTextEnd_of_one_line (line : '\n' ∉ s) : atTextEnd s = true ↔ s = [] := by
  rw [Slug.atTextEnd_iff, or_iff_left]
  rintro rfl
  exact line List.mem_cons_self

/-! ### Sizes -/

/-- A label without a bar at its start and the blanks after it. -/
def afterBar (s : List Char) : List Char :=
  (if s.head? == some '|' then s.tail else s).dropWhile isBlank

/-- A size that nothing stands before. -/
def bareSize? (s : List Char) : Option (List Char × List Char) :=
  let width := s.takeWhile isDigit
  let rest := s.dropWhile isDigit
  if width.isEmpty then none
  else if atTextEnd rest then some (width, [])
  else match rest with
    | 'x' :: r =>
      if atTextEnd (r.dropWhile isDigit) then some (width, r.takeWhile isDigit) else none
    | _ => none

theorem size?_eq (s : List Char) : size? s = bareSize? (afterBar s) := rfl

theorem digits_of_end {r : List Char} (line : '\n' ∉ r) (ends : atTextEnd (r.dropWhile isDigit) = true) :
    ∀ c ∈ r, isDigit c = true := by
  have inText : '\n' ∉ r.dropWhile isDigit := fun h => line ((List.dropWhile_suffix _).subset h)
  exact List.dropWhile_eq_nil_iff.mp ((atTextEnd_of_one_line inText).mp ends)

theorem bareSize?_eq_some_iff (line : '\n' ∉ s) : bareSize? s = some (w, h) ↔ IsSize s w h := by
  constructor
  · intro found
    have split : s.takeWhile isDigit ++ s.dropWhile isDigit = s := List.takeWhile_append_dropWhile
    have digits : ∀ c ∈ s.takeWhile isDigit, isDigit c = true := fun _ => List.mem_takeWhile_imp
    have inText : '\n' ∉ s.dropWhile isDigit := fun h => line ((List.dropWhile_suffix _).subset h)
    unfold bareSize? at found
    dsimp only at found
    split at found
    · cases found
    next some =>
    have number : IsNumber (s.takeWhile isDigit) := ⟨by simpa using some, digits⟩
    split at found
    · next ends =>
        cases found
        have whole : s.takeWhile isDigit = s := by
          rw [(atTextEnd_of_one_line inText).mp ends, List.append_nil] at split
          exact split
        have size := IsSize.width number
        rwa [whole] at size ⊢
    · split at found
      · next r rest =>
          split at found
          · next ends =>
              cases found
              rw [rest] at split inText
              have inRest : '\n' ∉ r := fun h => inText (List.mem_cons_of_mem _ h)
              have back := digits_of_end inRest ends
              have size := IsSize.crossed number back
              rwa [split, ← List.takeWhile_eq_self_iff.mpr back] at size
          · cases found
      · cases found
  · rintro (number | ⟨number, digits⟩)
    · have whole : s.takeWhile isDigit = s := List.takeWhile_eq_self_iff.mpr number.digits
      have rest : s.dropWhile isDigit = [] := List.dropWhile_eq_nil_iff.mpr number.digits
      simp [bareSize?, whole, rest, number.some, atTextEnd]
    · have stop := stop_cross h
      have whole : h.takeWhile isDigit = h := List.takeWhile_eq_self_iff.mpr digits
      have rest : h.dropWhile isDigit = [] := List.dropWhile_eq_nil_iff.mpr digits
      simp [bareSize?, takeWhile_append_stop number.digits stop, dropWhile_append_stop number.digits stop,
        number.some, whole, rest, atTextEnd]

theorem afterBar_suffix (s : List Char) : ∃ bar blanks, s = bar ++ blanks ++ afterBar s ∧
    (bar = [] ∨ bar = ['|']) ∧ ∀ c ∈ blanks, isBlank c = true := by
  have blank : ∀ t : List Char, ∀ c ∈ t.takeWhile isBlank, isBlank c = true :=
    fun _ _ => List.mem_takeWhile_imp
  unfold afterBar
  split
  · next bar =>
      refine ⟨['|'], s.tail.takeWhile isBlank, ?_, .inr rfl, blank s.tail⟩
      rw [List.append_assoc, List.takeWhile_append_dropWhile]
      exact (List.cons_head?_tail (by simpa using bar)).symm
  · exact ⟨[], s.takeWhile isBlank, List.takeWhile_append_dropWhile.symm, .inl rfl, blank s⟩

theorem afterBar_bar (size : IsSize s w h) : afterBar ('|' :: s) = s := by
  obtain ⟨c, t, rfl, digit⟩ := size.head
  simp [afterBar, isBlank_of_isDigit digit]

theorem afterBar_of_isSize (size : IsSize s w h) : afterBar s = s := by
  obtain ⟨c, t, rfl, digit⟩ := size.head
  have other : c ≠ '|' := by
    rintro rfl
    exact absurd digit (by decide)
  simp [afterBar, other, isBlank_of_isDigit digit]

/-- What has a size holds a bar at most at its start. -/
theorem bar_not_mem {c : Char} (line : '\n' ∉ c :: s) (found : size? (c :: s) = some (w, h)) :
    '|' ∉ s := by
  intro bar
  obtain ⟨front, blanks, split, first, blank⟩ := afterBar_suffix (c :: s)
  have inText : '\n' ∉ afterBar (c :: s) := fun h => line (split ▸ List.mem_append_right _ h)
  have size := (bareSize?_eq_some_iff inText).mp found
  have later : '|' ∈ blanks ++ afterBar (c :: s) := by
    rcases first with rfl | rfl
    · exact split ▸ List.mem_cons_of_mem c bar
    · have same : s = blanks ++ afterBar (c :: s) := (List.cons.inj split).2
      rwa [← same]
  rcases List.mem_append.mp later with inBlanks | inSize
  · exact absurd (blank _ inBlanks) (by decide)
  · exact size.isBare.not_mem (by decide) inSize

/-! ### Bare sizes -/

theorem isBareSize_iff (line : '\n' ∉ s) : isBareSize s = true ↔ IsBare s := by
  have inText : '\n' ∉ s.dropWhile isDigit := fun h => line ((List.dropWhile_suffix _).subset h)
  constructor
  · intro bare
    have split : s.takeWhile isDigit ++ s.dropWhile isDigit = s := List.takeWhile_append_dropWhile
    have digits : ∀ c ∈ s.takeWhile isDigit, isDigit c = true := fun _ => List.mem_takeWhile_imp
    unfold isBareSize at bare
    split at bare
    · next r rest =>
        rw [rest] at split inText
        rw [← split]
        exact .crossed digits (digits_of_end (fun h => inText (List.mem_cons_of_mem _ h)) bare)
    · exact .digits (digits_of_end line bare)
  · rintro (digits | ⟨front, back⟩)
    · simp [isBareSize, List.dropWhile_eq_nil_iff.mpr digits, atTextEnd]
    · simp [isBareSize, dropWhile_append_stop front (stop_cross _),
        List.dropWhile_eq_nil_iff.mpr back, atTextEnd]

/-! ### The alternative text -/

/-- A scan passes over a text on one line if no size starts in it. -/
theorem scan?_append (line : '\n' ∉ front)
    (none : ∀ b, b <:+ front → b ≠ [] → size? (b ++ s) = none) :
    scan? alt (front ++ s) = scan? (front.reverse ++ alt) s := by
  induction front generalizing alt with
  | nil => rfl
  | cons c front ih =>
      obtain ⟨first, later⟩ := not_or.mp (mt List.mem_cons.mpr line)
      have more : atTextEnd (c :: (front ++ s)) = false := by
        rw [Bool.eq_false_iff, Ne, Slug.atTextEnd_iff]
        rintro (empty | ends)
        · cases empty
        · exact first (List.cons.inj ends).1.symm
      have here := none (c :: front) List.suffix_rfl (List.cons_ne_nil _ _)
      have rest := fun b (suffix : b <:+ front) => none b (suffix.trans (List.suffix_cons c front))
      rw [List.cons_append] at here ⊢
      rw [scan?, here]
      simp only [more, Bool.false_eq_true, if_false, beq_iff_eq, Ne.symm first]
      rw [ih later rest]
      simp

/-- The label ends in digits, or in digits and a cross. -/
def EndsInSize (s : List Char) : Prop :=
  ∃ front w, IsNumber w ∧ (s = front ++ w ∨ s = front ++ w ++ ['x'])

theorem EndsInSize.last (ends : EndsInSize s) : ∃ c ∈ s.getLast?, isDigit c = true ∨ c = 'x' := by
  obtain ⟨front, w, number, rfl | rfl⟩ := ends
  · refine ⟨w.getLast number.some, ?_, .inl (number.digits _ (List.getLast_mem number.some))⟩
    simp [List.getLast?_append, List.getLast?_eq_some_getLast number.some]
  · exact ⟨'x', by simp, .inr rfl⟩

theorem IsSize.endsInSize (size : IsSize s w h) : EndsInSize (front ++ s) := by
  cases size with
  | width number => exact ⟨front, s, number, .inl rfl⟩
  | crossed number digits =>
      by_cases last : h = []
      · exact ⟨front, w, number, .inr (by simp [last])⟩
      · exact ⟨front ++ w ++ ['x'], h, ⟨last, digits⟩, .inl (by simp)⟩

theorem parts?_of_isSize (size : IsSize s w h) : parts? s = some ([], some (w, h)) := by
  have line : '\n' ∉ s := size.isBare.not_mem (by decide)
  have found : size? s = some (w, h) := by
    rw [size?_eq, afterBar_of_isSize size, bareSize?_eq_some_iff line]
    exact size
  rw [parts?, (isBareSize_iff line).mpr size.isBare, if_pos rfl, found]

theorem parts?_bar (line : '\n' ∉ front) (size : IsSize s w h) :
    parts? (front ++ '|' :: s) = some (front.reverse, some (w, h)) := by
  have inSize : '\n' ∉ s := size.isBare.not_mem (by decide)
  have later : '\n' ∉ '|' :: s := by simpa using inSize
  have whole : '\n' ∉ front ++ '|' :: s := by simpa using ⟨line, inSize⟩
  have bare : ¬IsBare (front ++ '|' :: s) := fun bare =>
    bare.not_mem (by decide) (List.mem_append_right front List.mem_cons_self)
  have none : ∀ b, b <:+ front → b ≠ [] → size? (b ++ '|' :: s) = none := by
    intro b suffix some
    obtain ⟨c, t, rfl⟩ := List.exists_cons_of_ne_nil some
    rw [Option.eq_none_iff_forall_ne_some]
    rintro ⟨w', h'⟩ found
    have inLabel : '\n' ∉ c :: t ++ '|' :: s := by
      rw [List.mem_append]
      exact not_or.mpr ⟨mt (suffix.subset ·) line, later⟩
    exact bar_not_mem inLabel found (List.mem_append_right t List.mem_cons_self)
  have found : size? ('|' :: s) = some (w, h) := by
    rw [size?_eq, afterBar_bar size]
    exact (bareSize?_eq_some_iff inSize).mpr size
  rw [parts?, if_neg (mt (isBareSize_iff whole).mp bare), scan?_append line none, scan?, found,
    List.append_nil]

theorem parts?_of_not_endsInSize (line : '\n' ∉ s) (other : ¬IsBare s) (free : ¬EndsInSize s) :
    parts? s = some (s.reverse, none) := by
  have none : ∀ b, b <:+ s → b ≠ [] → size? (b ++ []) = none := by
    rintro b ⟨front, rfl⟩ -
    rw [List.append_nil, Option.eq_none_iff_forall_ne_some]
    rintro ⟨w, h⟩ found
    obtain ⟨bar, blanks, split, -, -⟩ := afterBar_suffix b
    have inText : '\n' ∉ afterBar b := fun inside =>
      line (List.mem_append_right _ (split ▸ List.mem_append_right _ inside))
    have size := (bareSize?_eq_some_iff inText).mp found
    refine free ?_
    rw [split, ← List.append_assoc]
    exact size.endsInSize
  have scanned : scan? [] (s ++ []) = scan? (s.reverse ++ []) [] := scan?_append line none
  rw [List.append_nil, List.append_nil] at scanned
  rw [parts?, if_neg (mt (isBareSize_iff line).mp other), scanned]
  rfl

theorem orAuto_of_isNumber {w : String} (number : IsNumber w.toList) : orAuto w.toList = w := by
  rw [orAuto, if_neg (by simpa using number.some), String.ofList_toList]

/-- The grammar of labels on one line: a size after a bar or alone, and a text that ends in none. -/
theorem parse_label :
    (∀ alt w h : String, '\n' ∉ alt.toList → IsNumber w.toList → IsNumber h.toList →
      parse (alt ++ "|" ++ w ++ "x" ++ h) = ⟨alt, w, h⟩ ∧
      parse (alt ++ "|" ++ w) = ⟨alt, w, auto⟩ ∧
      parse (alt ++ "|" ++ w ++ "x") = ⟨alt, w, auto⟩ ∧
      parse (w ++ "x" ++ h) = ⟨"", w, h⟩ ∧
      parse w = ⟨"", w, auto⟩) ∧
    (∀ label : String, '\n' ∉ label.toList → ¬IsBare label.toList → ¬EndsInSize label.toList →
      parse label = ⟨label, auto, auto⟩) := by
  refine ⟨fun alt w h line width height => ?_, fun label line other free => ?_⟩
  · have both := IsSize.crossed width height.digits
    have single := IsSize.width width
    have started := IsSize.crossed width (h := []) nofun
    have none : orAuto [] = auto := rfl
    refine ⟨?_, ?_, ?_, ?_, ?_⟩
    · simp [parse, parts?_bar line both, orAuto_of_isNumber width, orAuto_of_isNumber height]
    · simp [parse, parts?_bar line single, orAuto_of_isNumber width, none]
    · simp [parse, parts?_bar line started, orAuto_of_isNumber width, none]
    · simp [parse, parts?_of_isSize both, orAuto_of_isNumber width, orAuto_of_isNumber height]
    · simp [parse, parts?_of_isSize single, orAuto_of_isNumber width, none]
  · simp [parse, parts?_of_not_endsInSize line other free]

theorem parse_label_plan :
    parse ("plan 10x" ++ "|" ++ "300" ++ "x" ++ "200") = ⟨"plan 10x", "300", "200"⟩ ∧
    parse "10 plans" = ⟨"10 plans", auto, auto⟩ := by
  have width : IsNumber "300".toList := ⟨by decide, List.all_eq_true.mp rfl⟩
  have height : IsNumber "200".toList := ⟨by decide, List.all_eq_true.mp rfl⟩
  have other : ¬IsBare "10 plans".toList := fun bare =>
    bare.not_mem (c := 'p') (by decide) (by decide)
  have free : ¬EndsInSize "10 plans".toList := by
    intro ends
    obtain ⟨c, last, size⟩ := ends.last
    obtain rfl : 's' = c := Option.some.inj last
    exact size.elim (absurd · (by decide)) (absurd · (by decide))
  exact ⟨(parse_label.1 "plan 10x" "300" "200" (by decide) width height).1,
    parse_label.2 "10 plans" (by decide) other free⟩

end ImageLabel

end NoteMarkup
