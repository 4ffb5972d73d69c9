import NoteMarkup.Proofs.Escaping
import NoteMarkup.Proofs.Fragment
import NoteMarkup.Proofs.ReferenceSyntax

/-! Reading markup back. The opening tags of a text can be read off it, each with its name and its
attributes. Of markup that is written part by part the reader gives exactly the opening tags among
the parts. -/

namespace NoteMarkup.Html

open Text

/-- A character of the name of an element or an attribute. -/
def isTagChar (c : Char) : Bool := c.isAlphanum || c == '-'

/-- The attributes at the start of a text, each after a space, and the rest. -/
def readAttrs : List Char → Attrs × List Char
  | ' ' :: s =>
    let name := String.ofList (s.takeWhile isTagChar)
    match _h : s.dropWhile isTagChar with
    | '=' :: '"' :: v =>
      let later := readAttrs (v.dropWhile (· != '"')).tail
      ((name, some (String.ofList (v.takeWhile (· != '"')))) :: later.1, later.2)
    | r =>
      let later := readAttrs r
      ((name, none) :: later.1, later.2)
  | s => ([], s)
termination_by s => s.length
decreasing_by
  · have name := (List.dropWhile_suffix (l := s) isTagChar).length_le
    have value := (List.dropWhile_suffix (l := v) (· != '"')).length_le
    rw [_h] at name
    simp only [List.length_cons, List.length_tail] at name ⊢
    omega
  · have name := (List.dropWhile_suffix (l := s) isTagChar).length_le
    rw [_h] at name
    simp only [List.length_cons]
    omega

theorem length_readAttrs (s : List Char) : (readAttrs s).2.length ≤ s.length := by
  fun_induction readAttrs s with
  | case1 s name v found later ih =>
      have name := (List.dropWhile_suffix (l := s) isTagChar).length_le
      have value := (List.dropWhile_suffix (l := v) (· != '"')).length_le
      rw [found] at name
      change later.2.length ≤ _
      simp only [List.length_cons, List.length_tail] at name ih ⊢
      exact ih.trans (by omega)
  | case2 s name other later ih =>
      have name := (List.dropWhile_suffix (l := s) isTagChar).length_le
      change later.2.length ≤ _
      exact ih.trans (name.trans (Nat.le_succ _))
  | case3 s => exact le_rfl

/-- The opening tags of a text. -/
def openings : List Char → List (String × Attrs)
  | [] => []
  | c :: s =>
    let name := s.takeWhile isTagChar
    if c == '<' && !name.isEmpty then
      let read := readAttrs (s.dropWhile isTagChar)
      (String.ofList name, read.1) :: openings read.2
    else openings s
termination_by s => s.length
decreasing_by
  · have name := (List.dropWhile_suffix (l := s) isTagChar).length_le
    have attrs := length_readAttrs (s.dropWhile isTagChar)
    simp only [List.length_cons]
    omega
  · exact Nat.lt_succ_self _

section Reading

variable {s rest : List Char} {name : String} {as : Attrs} {ps : List Part}

theorem isName_iff : isName name = true ↔ name.toList ≠ [] ∧ ∀ c ∈ name.toList, isTagChar c = true := by
  simp [isName, isTagChar]

theorem openings_cons_of_ne {c : Char} (h : c ≠ '<') (s : List Char) : openings (c :: s) = openings s := by
  rw [openings, if_neg (by simp [h])]

/-- A text without `<` holds no tag. -/
theorem openings_append (h : '<' ∉ s) (rest : List Char) : openings (s ++ rest) = openings rest := by
  induction s with
  | nil => rfl
  | cons c s ih =>
      obtain ⟨first, later⟩ := not_or.mp (mt List.mem_cons.mpr h)
      rw [List.cons_append, openings_cons_of_ne (Ne.symm first), ih later]

theorem not_mem_of_isPlainChars (h : isPlainChars s = true) : '<' ∉ s ∧ '"' ∉ s := by
  induction s with
  | nil => simp
  | cons c s ih =>
      rw [isPlainChars, Bool.and_eq_true] at h
      obtain ⟨less, quote⟩ := ih h.2
      have first : c ≠ '<' ∧ c ≠ '"' := by
        have char := h.1
        split at char
        · next reference =>
            rw [beq_iff_eq.mp reference]
            decide
        · simp only [Bool.and_eq_true, bne_iff_ne] at char
          exact ⟨char.1.1.1, char.1.2⟩
      simp [less, quote, first.1.symm, first.2.symm]

theorem readAttrs_bare {name : List Char} (inside : ∀ c ∈ name, isTagChar c = true)
    (stop : ∀ c, rest.head? = some c → isTagChar c = false ∧ c ≠ '=') :
    readAttrs (' ' :: (name ++ rest)) =
      ((String.ofList name, none) :: (readAttrs rest).1, (readAttrs rest).2) := by
  have front := takeWhile_append_stop inside fun c h => (stop c h).1
  have back := dropWhile_append_stop inside fun c h => (stop c h).1
  rw [readAttrs, front]
  split
  · next v found =>
      rw [back] at found
      exact ((stop '=' (by rw [found]; rfl)).2 rfl).elim
  · next other => rw [back]

theorem readAttrs_value {name value : List Char} (inside : ∀ c ∈ name, isTagChar c = true)
    (quote : '"' ∉ value) (rest : List Char) :
    readAttrs (' ' :: (name ++ '=' :: '"' :: (value ++ '"' :: rest))) =
      ((String.ofList name, some (String.ofList value)) :: (readAttrs rest).1, (readAttrs rest).2) := by
  have stop : ∀ c, ('=' :: '"' :: (value ++ '"' :: rest)).head? = some c → isTagChar c = false := by
    rintro _ ⟨⟩
    decide
  have other : ∀ c ∈ value, (c != '"') = true := fun c hc => by
    rw [bne_iff_ne]
    rintro rfl
    exact quote hc
  have closed : ∀ c, ('"' :: rest).head? = some c → (c != '"') = false := by
    rintro _ ⟨⟩
    rfl
  rw [readAttrs, takeWhile_append_stop inside stop]
  split
  · next v found =>
      rw [dropWhile_append_stop inside stop] at found
      cases found
      rw [takeWhile_append_stop other closed, dropWhile_append_stop other closed, List.tail_cons]
  · next none => exact (none _ (dropWhile_append_stop inside stop)).elim

/-- What follows an attribute in a tag: another one, or the end of the tag. -/
theorem head_write {c : Char} (h : (as.write.toList ++ '>' :: rest).head? = some c) :
    isTagChar c = false ∧ c ≠ '=' := by
  rcases as with _ | ⟨⟨name, _ | value⟩, as⟩
  · cases h
    decide
  · simp [Attrs.write] at h
    cases h
    decide
  · simp [Attrs.write] at h
    cases h
    decide

/-- Attributes that are written can be read. -/
theorem readAttrs_write (sound : as.isSound = true) (rest : List Char) :
    readAttrs (as.write.toList ++ '>' :: rest) = (as, '>' :: rest) := by
  induction as with
  | nil => simp [Attrs.write, readAttrs]
  | cons a as ih =>
      rw [Attrs.isSound, List.all_cons, Bool.and_eq_true] at sound
      obtain ⟨first, later⟩ := sound
      rcases a with ⟨name, value⟩
      rw [Bool.and_eq_true] at first
      have chars := (isName_iff.mp first.1).2
      cases value with
      | none =>
          have split : (Attrs.write ((name, none) :: as)).toList ++ '>' :: rest =
              ' ' :: (name.toList ++ ((Attrs.write as).toList ++ '>' :: rest)) := by
            simp [Attrs.write]
          rw [split, readAttrs_bare chars fun c => head_write, ih later, String.ofList_toList]
      | some value =>
          have split : (Attrs.write ((name, some value) :: as)).toList ++ '>' :: rest =
              ' ' :: (name.toList ++ '=' :: '"' :: (value.toList ++ '"' ::
                ((Attrs.write as).toList ++ '>' :: rest))) := by
            simp [Attrs.write]
          rw [split, readAttrs_value chars (not_mem_of_isPlainChars first.2).2, ih later,
            String.ofList_toList, String.ofList_toList]

/-- The opening tag that a part is. -/
def Part.opening? : Part → Option (String × Attrs)
  | .opening name as => some (name, as)
  | _ => none

theorem openings_opening (hn : isName name = true) (ha : as.isSound = true) (rest : List Char) :
    openings ((Part.opening name as).write.toList ++ rest) = (name, as) :: openings rest := by
  obtain ⟨some, chars⟩ := isName_iff.mp hn
  have split : (Part.opening name as).write.toList ++ rest =
      '<' :: (name.toList ++ (as.write.toList ++ '>' :: rest)) := by
    simp [Part.write]
  have stop := fun c (h : (as.write.toList ++ '>' :: rest).head? = Option.some c) => (head_write h).1
  have front := takeWhile_append_stop chars stop
  rw [split, openings, front, dropWhile_append_stop chars stop, if_pos (by simp [some])]
  dsimp only
  rw [readAttrs_write ha, String.ofList_toList, openings_cons_of_ne (by decide)]

theorem openings_closing (hn : isName name = true) (rest : List Char) :
    openings ((Part.closing name).write.toList ++ rest) = openings rest := by
  have split : (Part.closing name).write.toList ++ rest = '<' :: (('/' :: name.toList ++ ['>']) ++ rest) := by
    simp [Part.write]
  have less : '<' ∉ '/' :: name.toList ++ ['>'] := by
    intro h
    simp only [List.cons_append, List.mem_cons, List.mem_append, List.not_mem_nil, or_false] at h
    rcases h with h | h | h
    · exact absurd h (by decide)
    · exact absurd ((isName_iff.mp hn).2 _ h) (by decide)
    · exact absurd h (by decide)
  rw [split, openings, if_neg, openings_append less]
  simp [isTagChar]

/-- Of parts that are written one after the other, the reader gives the opening tags. -/
theorem openings_written (sound : ∀ p ∈ ps, p.isSound = true) :
    openings (written ps).toList = ps.filterMap Part.opening? := by
  induction ps with
  | nil => rw [written]; simp [openings]
  | cons p ps ih =>
      obtain ⟨first, later⟩ := List.forall_mem_cons.mp sound
      rw [written, String.toList_append]
      cases p with
      | text s =>
          rw [Part.write, openings_append (not_mem_of_isPlainChars first).1, ih later]
          rfl
      | opening name as =>
          rw [Part.isSound, Bool.and_eq_true] at first
          rw [openings_opening first.1 first.2, ih later]
          rfl
      | closing name =>
          rw [openings_closing first, ih later]
          rfl

end Reading

end NoteMarkup.Html
