import NoteMarkup.Text.Lines

/-! Texts cut at a character, and after a text that they start with. -/

namespace NoteMarkup.Text

variable {sep c : Char} {s : List Char}

theorem splitAtChar_ne_nil (sep : Char) (s : List Char) : splitAtChar sep s ≠ [] := by
  cases s with
  | nil => nofun
  | cons c s =>
      rw [splitAtChar]
      split
      · nofun
      · split <;> nofun

theorem splitAtChar_of_not_mem (h : sep ∉ s) : splitAtChar sep s = [s] := by
  induction s with
  | nil => rfl
  | cons c s ih =>
      obtain ⟨first, later⟩ := not_or.mp (mt List.mem_cons.mpr h)
      rw [splitAtChar, if_neg (by simpa using Ne.symm first), ih later]

theorem splitAtChar_append (sep : Char) (s t : List Char) :
    splitAtChar sep (s ++ sep :: t) = splitAtChar sep s ++ splitAtChar sep t := by
  induction s with
  | nil => simp [splitAtChar]
  | cons c s ih =>
      by_cases here : (c == sep) = true
      · simp [splitAtChar, here, ih]
      · rw [List.cons_append, splitAtChar, splitAtChar, if_neg here, if_neg here, ih]
        cases first : splitAtChar sep s with
        | nil => exact absurd first (splitAtChar_ne_nil sep s)
        | cons part parts => rfl

theorem joinWith_cons {t : List Char} {parts : List (List Char)} (some : parts ≠ []) :
    joinWith [sep] (t :: parts) = t ++ sep :: joinWith [sep] parts := by
  cases parts with
  | nil => exact absurd rfl some
  | cons part parts => simp [joinWith]

theorem joinWith_append {front back : List (List Char)} (someFront : front ≠ []) (someBack : back ≠ []) :
    joinWith [sep] (front ++ back) = joinWith [sep] front ++ sep :: joinWith [sep] back := by
  induction front with
  | nil => exact absurd rfl someFront
  | cons t front ih =>
      by_cases last : front = []
      · rw [last, List.singleton_append, joinWith_cons someBack, joinWith]
      · rw [List.cons_append, joinWith_cons (by simp [last]), joinWith_cons last, ih last,
          List.append_assoc, List.cons_append]

theorem joinWith_splitAtChar (sep : Char) (s : List Char) : joinWith [sep] (splitAtChar sep s) = s := by
  induction s with
  | nil => rfl
  | cons c s ih =>
      rw [splitAtChar]
      split
      · next here =>
          rw [joinWith_cons (splitAtChar_ne_nil sep s), ih, beq_iff_eq.mp here, List.nil_append]
      · split
        · next none => exact absurd none (splitAtChar_ne_nil sep s)
        · next part parts parted =>
            rw [parted] at ih
            cases parts with
            | nil => exact congrArg (c :: ·) ih
            | cons p ps => exact congrArg (c :: ·) ih

theorem mem_joinWith {sep : List Char} {parts : List (List Char)} (h : c ∈ joinWith sep parts) :
    c ∈ sep ∨ ∃ p ∈ parts, c ∈ p := by
  induction parts with
  | nil => cases h
  | cons p parts ih =>
      cases parts with
      | nil => exact .inr ⟨p, List.mem_cons_self, h⟩
      | cons q parts =>
          rcases List.mem_append.mp h with front | later
          · exact (List.mem_append.mp front).elim (fun hp => .inr ⟨p, List.mem_cons_self, hp⟩) .inl
          · exact (ih later).imp id fun ⟨p', hp', hc⟩ => ⟨p', List.mem_cons_of_mem _ hp', hc⟩

theorem mem_joinWith_of_mem {sep p : List Char} {parts : List (List Char)} (h : p ∈ parts)
    (hc : c ∈ p) : c ∈ joinWith sep parts := by
  induction parts with
  | nil => cases h
  | cons q parts ih =>
      cases parts with
      | nil => exact List.mem_singleton.mp h ▸ hc
      | cons r parts =>
          rcases List.mem_cons.mp h with rfl | later
          · exact List.mem_append_left _ (List.mem_append_left _ hc)
          · exact List.mem_append_right _ (ih later)

theorem mem_of_mem_splitAtChar {part : List Char} (member : part ∈ splitAtChar sep s) (h : c ∈ part) :
    c ∈ s :=
  joinWith_splitAtChar sep s ▸ mem_joinWith_of_mem member h

theorem free_of_mem_splitAtChar {part : List Char} (h : part ∈ splitAtChar sep s) : sep ∉ part := by
  induction s generalizing part with
  | nil =>
      rw [List.mem_singleton.mp h]
      exact List.not_mem_nil
  | cons c s ih =>
      rw [splitAtChar] at h
      split at h
      · rcases List.mem_cons.mp h with rfl | later
        · exact List.not_mem_nil
        · exact ih later
      · next other =>
          have notSep : sep ≠ c := by simpa using Ne.symm (by simpa using other)
          split at h
          · next none => exact absurd none (splitAtChar_ne_nil sep s)
          · next p ps parted =>
              rw [parted] at ih
              rcases List.mem_cons.mp h with rfl | later
              · exact mt List.mem_cons.mp (not_or.mpr ⟨notSep, ih List.mem_cons_self⟩)
              · exact ih (List.mem_cons_of_mem _ later)

theorem splitAtChar_joinWith {parts : List (List Char)} (some : parts ≠ [])
    (free : ∀ part ∈ parts, sep ∉ part) : splitAtChar sep (joinWith [sep] parts) = parts := by
  induction parts with
  | nil => exact absurd rfl some
  | cons t parts ih =>
      obtain ⟨first, later⟩ := List.forall_mem_cons.mp free
      by_cases last : parts = []
      · rw [last, joinWith, splitAtChar_of_not_mem first]
      · rw [joinWith_cons last, splitAtChar_append, splitAtChar_of_not_mem first, ih last later,
          List.singleton_append]

theorem eq_of_afterFront? {front rest : List Char} (h : afterFront? front s = some rest) :
    s = front ++ rest := by
  fun_induction afterFront? front s with
  | case1 s => exact Option.some.inj h
  | case2 => cases h
  | case3 f fs c cs same ih => rw [beq_iff_eq.mp same, ih h, List.cons_append]
  | case4 => cases h

theorem afterFront?_append (front rest : List Char) : afterFront? front (front ++ rest) = some rest := by
  induction front with
  | nil => rfl
  | cons f fs ih => rw [List.cons_append, afterFront?, if_pos (beq_self_eq_true f), ih]

theorem afterFront?_eq_some_iff {front rest : List Char} :
    afterFront? front s = some rest ↔ s = front ++ rest :=
  ⟨eq_of_afterFront?, fun same => same ▸ afterFront?_append front rest⟩

theorem cutAt_append {front : List Char} (free : sep ∉ front) :
    cutAt sep (front ++ s) = (cutAt sep s).map fun parts => (front ++ parts.1, parts.2) := by
  have inside : ∀ c ∈ front, (c != sep) = true := by
    intro c member
    have other : c ≠ sep := fun same => free (same ▸ member)
    simpa using other
  unfold cutAt
  rw [List.dropWhile_append_of_pos inside, List.takeWhile_append_of_pos inside]
  cases s.dropWhile (· != sep) <;> rfl

section Lines

variable {w : List Char} {c : Char}

theorem ne_of_not_lineEnd {d : Char} (h : isLineEnd c = false) (ends : isLineEnd d = true) : c ≠ d := by
  rintro rfl
  rw [h] at ends
  cases ends

theorem linesFrom_append (line : List Char) (free : ∀ c ∈ w, isLineEnd c = false) (s : List Char) :
    linesFrom line (w ++ s) = linesFrom (w.reverse ++ line) s := by
  induction w generalizing line with
  | nil => rfl
  | cons c w ih =>
      obtain ⟨first, later⟩ := List.forall_mem_cons.mp free
      have step : linesFrom line (c :: (w ++ s)) = linesFrom (c :: line) (w ++ s) := by
        rw [linesFrom.eq_3 line c (w ++ s) fun cs same _ => ne_of_not_lineEnd first rfl same, first]
        rfl
      rw [List.cons_append, step, ih (c :: line) later, List.reverse_cons, List.append_assoc]
      rfl

/-- The first line of a text is what stands before the first character that ends a line, with it. -/
theorem lines_append (free : ∀ c ∈ w, isLineEnd c = false) (ends : isLineEnd c = true)
    (single : c ≠ '\r') (s : List Char) : lines (w ++ c :: s) = (w ++ [c]) :: lines s := by
  rw [lines, linesFrom_append [] free, linesFrom.eq_3 _ c s fun cs same _ => single same, ends,
    if_pos rfl]
  simp [lines]

theorem lines_of_free (free : ∀ c ∈ w, isLineEnd c = false) :
    lines w = if w.isEmpty then [] else [w] := by
  have whole := linesFrom_append [] free []
  rw [List.append_nil] at whole
  rw [lines, whole]
  simp [linesFrom]

theorem normalizeLines_cons {s : List Char} (other : c ≠ '\r') :
    normalizeLines (c :: s) = c :: normalizeLines s := by
  rw [normalizeLines.eq_3 c s fun cs same _ => other same, if_neg (by simpa using other)]

theorem normalizeLines_append (free : ∀ c ∈ w, isLineEnd c = false) (s : List Char) :
    normalizeLines (w ++ s) = w ++ normalizeLines s := by
  induction w with
  | nil => rfl
  | cons c w ih =>
      obtain ⟨first, later⟩ := List.forall_mem_cons.mp free
      rw [List.cons_append, normalizeLines_cons (ne_of_not_lineEnd first rfl), ih later,
        List.cons_append]

theorem normalizeLines_of_free (free : ∀ c ∈ w, isLineEnd c = false) : normalizeLines w = w := by
  have whole := normalizeLines_append free []
  rwa [List.append_nil, normalizeLines, List.append_nil] at whole

/-- A carriage return without a line feed after it turns into one. -/
theorem normalizeLines_return {s : List Char} (alone : s.head? ≠ some '\n') :
    normalizeLines ('\r' :: s) = '\n' :: normalizeLines s := by
  rw [normalizeLines.eq_3 '\r' s fun cs _ same => alone (congrArg List.head? same)]
  rfl

end Lines

end NoteMarkup.Text
