import NoteMarkup.BlockMarker
import NoteMarkup.Proofs.SlugText

/-! The grammar of block markers. A marker is read off a text exactly if the text ends in one that stands at
its start or after a blank: what the scan passes over on the way to the last `^` is no marker. -/

namespace NoteMarkup.BlockMarker

open Text

variable {s t before front id rest : List Char} {c : Char}

/-- The text is `front`, a marker with the id, and blanks. The front is empty or ends in a blank. -/
inductive Ends (front id : List Char) : List Char → Prop
  | marker {back : List Char} (apart : ∀ c, front.getLast? = some c → isBlank c = true)
      (some : id ≠ []) (inside : ∀ c ∈ id, isIdChar c = true) (after : ∀ c ∈ back, isBlank c = true) :
      Ends front id (front ++ '^' :: (id ++ back))

theorem isIdChar_of_isBlank (h : isBlank c = true) : isIdChar c = false := by
  obtain ⟨noWord, noDash⟩ := isWord_of_isBlank h
  have noLetter : c.isAlphanum = false := by
    rw [Bool.eq_false_iff]
    intro letter
    rw [isWord_of_isAlphanum letter] at noWord
    cases noWord
  have noLine : c ≠ '_' := by
    rintro rfl
    exact absurd noWord (by decide)
  simp [isIdChar, noLetter, noDash, noLine]

theorem Ends.whole {back : List Char} (some : id ≠ []) (inside : ∀ c ∈ id, isIdChar c = true)
    (after : ∀ c ∈ back, isBlank c = true) : Ends [] id ('^' :: (id ++ back)) :=
  .marker nofun some inside after

theorem id?_eq_some_iff : id? s = some id ↔ Ends [] id s := by
  constructor
  · intro h
    unfold id? at h
    split at h
    · next r =>
        dsimp only at h
        split at h
        · next found =>
            rw [Bool.and_eq_true, Bool.not_eq_true', List.isEmpty_eq_false_iff] at found
            obtain rfl := Option.some.inj h
            have whole := Ends.whole found.1 (fun c => List.mem_takeWhile_imp)
              (List.all_eq_true.mp found.2)
            rwa [List.takeWhile_append_dropWhile] at whole
        · cases h
    · cases h
  · rintro @⟨back, -, some, inside, after⟩
    have stop : ∀ c, back.head? = .some c → isIdChar c = false := fun c head =>
      isIdChar_of_isBlank (after c (List.mem_of_head? head))
    have blank : back.all isBlank = true := List.all_eq_true.mpr after
    simp only [List.nil_append, id?, takeWhile_append_stop inside stop, dropWhile_append_stop inside stop,
      blank, Bool.and_true]
    rw [if_pos (by simpa using some)]

/-- Nothing in a marker but its first character is a `^`. -/
theorem Ends.caret_not_mem (h : Ends [] id (c :: rest)) : '^' ∉ rest := by
  generalize whole : c :: rest = s at h
  obtain @⟨back, -, -, inside, after⟩ := h
  obtain ⟨-, rfl⟩ := List.cons.inj whole
  intro member
  rcases List.mem_append.mp member with inId | blank
  · exact absurd (inside _ inId) (by decide)
  · exact absurd (after _ blank) (by decide)

theorem Ends.caret_mem (h : Ends front id s) : '^' ∈ s := by
  obtain ⟨-⟩ := h
  simp

theorem Ends.isIdChar (h : Ends front id s) : ∀ c ∈ id, isIdChar c = true := by
  obtain ⟨-, -, inside, -⟩ := h
  exact inside

/-- A marker that follows something is not found before. -/
theorem id?_of_later (h : id? s = some id) (front : List Char) : id? (c :: (front ++ s)) = none := by
  rw [Option.eq_none_iff_forall_ne_some]
  intro other found
  refine (id?_eq_some_iff.mp found).caret_not_mem ?_
  exact List.mem_append_right _ (id?_eq_some_iff.mp h).caret_mem

theorem scan?_eq_some_iff : scan? before s = some (front, id) ↔
    ∃ t c rest, s = t ++ c :: rest ∧ isBlank c = true ∧ id? rest = some id ∧
      front = t.reverse ++ before := by
  constructor
  · intro h
    induction s generalizing before with
    | nil => cases h
    | cons c s ih =>
        rw [scan?] at h
        split at h
        · next found =>
            cases h
            split at found
            · next blank => exact ⟨[], c, s, rfl, blank, found, rfl⟩
            · cases found
        · obtain ⟨t, d, rest, rfl, blank, found, rfl⟩ := ih h
          exact ⟨c :: t, d, rest, rfl, blank, found, by simp⟩
  · rintro ⟨t, c, rest, rfl, blank, found, rfl⟩
    induction t generalizing before with
    | nil => simp [scan?, blank, found]
    | cons d t ih =>
        have passed : id? (t ++ c :: rest) = none := by
          cases t with
          | nil =>
              have later := id?_of_later (c := c) found []
              rwa [List.nil_append] at later
          | cons e t =>
              have later := id?_of_later (c := e) found (t ++ [c])
              rwa [List.append_assoc, List.singleton_append] at later
        rw [List.cons_append, scan?, passed, ite_self]
        simp [ih]

theorem trimRight_append_blank (blank : isBlank c = true) (s : List Char) :
    trimRight (s ++ [c]) = trimRight s := by
  simp [trimRight, blank]

theorem Ends.of_id? (h : id? rest = some id) (blank : isBlank c = true) (t : List Char) :
    Ends (t ++ [c]) id (t ++ c :: rest) := by
  obtain @⟨back, -, some, inside, after⟩ := id?_eq_some_iff.mp h
  have apart : ∀ d, (t ++ [c]).getLast? = .some d → isBlank d = true := by
    intro d last
    rw [List.getLast?_concat] at last
    exact Option.some.inj last ▸ blank
  have whole := Ends.marker apart some inside after
  rwa [List.append_assoc, List.singleton_append] at whole

theorem Ends.blank (h : Ends (t ++ [c]) id s) : isBlank c = true := by
  obtain ⟨apart⟩ := h
  exact apart c List.getLast?_concat

/-- What ends in a marker after a blank is no marker itself, and the scan finds the one at the end. -/
theorem Ends.found (h : Ends (t ++ [c]) id s) : id? s = none ∧ scan? [] s = some (t.reverse, id) := by
  have blank := h.blank
  obtain @⟨back, -, some, inside, after⟩ := h
  have last : id? ('^' :: (id ++ back)) = .some id :=
    id?_eq_some_iff.mpr (.whole some inside after)
  refine ⟨?_, scan?_eq_some_iff.mpr ⟨t, c, _, by simp, blank, last, by simp⟩⟩
  cases t with
  | nil => exact id?_of_later last []
  | cons d t => exact id?_of_later last (t ++ [c])

/-- A marker is read with its id, and with what stands before it trimmed at the end. -/
theorem parse?_eq_some_iff {text : String} {marker : BlockMarker} :
    parse? text = some marker ↔ ∃ front, Ends front marker.id.toList text.toList ∧
      marker.text.toList = trimRight front := by
  constructor
  · intro h
    unfold parse? at h
    split at h
    · next id whole =>
        obtain rfl := Option.some.inj h
        refine ⟨[], ?_, rfl⟩
        rw [String.toList_ofList]
        exact id?_eq_some_iff.mp whole
    · split at h
      · next front id found =>
          obtain rfl := Option.some.inj h
          obtain ⟨t, c, rest, split, blank, last, rfl⟩ := scan?_eq_some_iff.mp found
          refine ⟨t ++ [c], ?_, ?_⟩
          · rw [split, String.toList_ofList]
            exact .of_id? last blank t
          · rw [trimRight_append_blank blank, String.toList_ofList, List.append_nil, List.reverse_reverse]
      · cases h
  · rintro ⟨front, ends, trimmed⟩
    have name : marker.text = String.ofList (trimRight front) := by
      rw [← trimmed, String.ofList_toList]
    have same : (⟨String.ofList (trimRight front), String.ofList marker.id.toList⟩ : BlockMarker) =
        marker := by rw [← name, String.ofList_toList]
    rw [← same]
    unfold parse?
    rcases List.eq_nil_or_concat front with rfl | ⟨t, c, rfl⟩
    · rw [id?_eq_some_iff.mpr ends]
      rfl
    · rw [List.concat_eq_append] at ends ⊢
      obtain ⟨passed, found⟩ := ends.found
      rw [passed, found, trimRight_append_blank ends.blank]
      dsimp only
      rw [List.reverse_reverse]

theorem parse?_of_ends {text : String} (h : Ends front id text.toList) :
    parse? text = some ⟨String.ofList (trimRight front), String.ofList id⟩ :=
  parse?_eq_some_iff.mpr ⟨front, by rwa [String.toList_ofList], String.toList_ofList⟩

end NoteMarkup.BlockMarker
