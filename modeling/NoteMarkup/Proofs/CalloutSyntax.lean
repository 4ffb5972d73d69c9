import NoteMarkup.Proofs.CalloutLines

/-! The grammar of callout directives. A directive is `[!`, a kind that takes all the characters a kind
can have, and what the rest of its line says. A quoted line break is put after the lines that open a
callout, but for those with a kind that starts with a dash. -/

namespace NoteMarkup.Callout

open Text

variable {s line kind rest : List Char} {d : Directive} {c : Char}

theorem isKindChar_of_isWord (h : isWord c = true) : isKindChar c = true := by
  rw [isKindChar, h, Bool.true_or]

theorem isWord_of_isKindChar (h : isKindChar c = true) (noDash : c ≠ '-') : isWord c = true := by
  rw [isKindChar, Bool.or_eq_true, beq_iff_eq] at h
  exact h.resolve_right noDash

/-- What follows the bar between a kind and its metadata, which may be left out. -/
def afterBar (rest : List Char) : List Char := if rest.head? == some '|' then rest.tail else rest

/-- The directive of a kind, from its metadata and what follows the closing bracket. -/
def ofParts (kind : List Char) (parts : Option (List Char) × List Char) : Directive where
  kind := canonical (String.ofList kind)
  rawKind := String.ofList kind
  metadata := parts.1.map String.ofList
  fold := (splitFold parts.2).1
  title := String.ofList (trim (splitFold parts.2).2)

/-- The directive of a kind, from what follows the kind in its line. -/
def directive? (kind rest : List Char) : Option Directive :=
  (splitMetadata? (afterBar rest)).map (ofParts kind)

/-- A directive line with a kind, before it is told whether the rest of the line has a bracket. -/
def written (kind rest : List Char) : List Char := '[' :: '!' :: (kind ++ rest)

/-- The kind of a directive is all that can be read as one. -/
structure IsKind (kind rest : List Char) : Prop where
  named : kind ≠ []
  inside : ∀ c ∈ kind, isKindChar c = true
  stop : ∀ c, rest.head? = some c → isKindChar c = false

theorem parseChars?_written (h : IsKind kind rest) :
    parseChars? (written kind rest) = directive? kind rest := by
  have isNamed : kind.isEmpty = false := by simpa using h.named
  simp only [parseChars?, written, afterFront?, beq_self_eq_true, if_true, Option.bind_eq_bind,
    Option.bind_some, takeWhile_append_stop h.inside h.stop, dropWhile_append_stop h.inside h.stop,
    isNamed, Bool.false_eq_true, if_false]
  exact Option.map_eq_bind.symm

/-- A text that starts with a character of a kind starts with a kind. -/
theorem isKind_parts (named : s.takeWhile isKindChar ≠ []) :
    IsKind (s.takeWhile isKindChar) (s.dropWhile isKindChar) := by
  refine ⟨named, fun c => List.mem_takeWhile_imp, fun c head => ?_⟩
  have first := List.head?_dropWhile_not isKindChar s
  simpa [head] using first

theorem written_parts (s : List Char) :
    written (s.takeWhile isKindChar) (s.dropWhile isKindChar) = '[' :: '!' :: s := by
  rw [written, List.takeWhile_append_dropWhile]

/-- No kind has a bracket. -/
theorem bracket_after_kind (h : ']' ∈ s) : ']' ∈ s.dropWhile isKindChar := by
  have parted : s.takeWhile isKindChar ++ s.dropWhile isKindChar = s :=
    List.takeWhile_append_dropWhile
  rw [← parted, List.mem_append] at h
  exact h.resolve_left fun inKind => absurd (List.mem_takeWhile_imp inKind) (by decide)

/-- A line is a directive when it can be parted into a kind and a rest that make one. -/
theorem parseChars?_eq_some_iff :
    parseChars? line = some d ↔
      ∃ kind rest, IsKind kind rest ∧ line = written kind rest ∧ directive? kind rest = some d := by
  constructor
  · intro h
    obtain ⟨r, front, later⟩ := Option.bind_eq_some_iff.mp h
    have opened : line = '[' :: '!' :: r := eq_of_afterFront? front
    have named : r.takeWhile isKindChar ≠ [] := by
      intro none
      simp [none] at later
    rw [← written_parts] at opened
    refine ⟨_, _, isKind_parts named, opened, ?_⟩
    rw [← parseChars?_written (isKind_parts named), ← opened, h]
  · rintro ⟨kind, rest, isKind, rfl, same⟩
    rw [parseChars?_written isKind, same]

theorem untilBracket?_append (free : ']' ∉ s) (oneLine : '\n' ∉ s) (after : List Char) :
    untilBracket? (s ++ ']' :: after) = some (s, after) := by
  have inside : ∀ c ∈ s, (c != ']' && c != '\n') = true := by
    intro c member
    have notBracket : c ≠ ']' := fun same => free (same ▸ member)
    have notBreak : c ≠ '\n' := fun same => oneLine (same ▸ member)
    simp [notBracket, notBreak]
  have stop : ∀ c, (']' :: after).head? = some c → (c != ']' && c != '\n') = false := by
    rintro _ ⟨⟩
    rfl
  simp [untilBracket?, takeWhile_append_stop inside stop]

theorem untilBracket?_isSome_iff (oneLine : '\n' ∉ s) :
    (untilBracket? s).isSome = true ↔ ']' ∈ s := by
  constructor
  · intro h
    unfold untilBracket? at h
    dsimp only at h
    split at h
    · next rest found => exact List.mem_of_mem_drop (found ▸ List.mem_cons_self)
    · cases h
  · intro h
    obtain ⟨front, after, rfl, free⟩ := List.eq_append_cons_of_mem h
    rw [untilBracket?_append free fun h => oneLine (List.mem_append_left _ h)]
    rfl

theorem splitMetadata?_isSome_iff (oneLine : '\n' ∉ s) :
    (splitMetadata? s).isSome = true ↔ ']' ∈ s := by
  cases s with
  | nil => simp [splitMetadata?]
  | cons c r =>
      obtain ⟨first, later⟩ := not_or.mp (mt List.mem_cons.mpr oneLine)
      have noBreak : (c == '\n') = false := by simpa using Ne.symm first
      rw [splitMetadata?, noBreak, if_neg Bool.false_ne_true, List.mem_cons,
        ← untilBracket?_isSome_iff later]
      cases untilBracket? r with
      | none => by_cases h : c = ']' <;> simp [h, Ne.symm]
      | some parts => simp

theorem mem_afterBar (rest : List Char) : ']' ∈ afterBar rest ↔ ']' ∈ rest := by
  cases rest with
  | nil => exact Iff.rfl
  | cons c r => by_cases bar : c = '|' <;> simp [afterBar, bar]

theorem directive?_isSome_iff (oneLine : '\n' ∉ rest) :
    (directive? kind rest).isSome = true ↔ ']' ∈ rest := by
  have later : '\n' ∉ afterBar rest := by
    unfold afterBar
    split
    · exact fun h => oneLine (List.mem_of_mem_tail h)
    · exact oneLine
  rw [directive?, Option.isSome_map, splitMetadata?_isSome_iff later, mem_afterBar]

/-- A quoted line opens a callout in the source when its text is `[!`, a word character and, later,
a bracket. -/
theorem opensCallout_quoted (unindented : line.head? ≠ some ' ') :
    opensCallout ('>' :: ' ' :: line) = true ↔
      ∃ c r, line = '[' :: '!' :: c :: r ∧ isWord c = true ∧ ']' ∈ r := by
  have blanks : (' ' :: line).dropWhile (· == ' ') = line := by
    rw [List.dropWhile_cons_of_pos rfl]
    cases line with
    | nil => rfl
    | cons c r =>
        have notBlank : c ≠ ' ' := fun same => unindented (congrArg some same)
        exact List.dropWhile_cons_of_neg (by simpa using notBlank)
  simp only [opensCallout, blanks]
  constructor
  · intro h
    split at h
    · next c r =>
        rw [Bool.and_eq_true, List.contains_iff_mem] at h
        exact ⟨c, r, rfl, h⟩
    · cases h
  · rintro ⟨c, r, rfl, word, bracket⟩
    simp [word, bracket]

/-- The lines that open a callout in the source are the directives with a kind that does not start
with a dash. -/
theorem opensCallout_iff (oneLine : '\n' ∉ line) (unindented : line.head? ≠ some ' ') :
    opensCallout ('>' :: ' ' :: line) = true ↔
      ∃ d, parseChars? line = some d ∧ d.rawKind.toList.head? ≠ some '-' := by
  rw [opensCallout_quoted unindented]
  constructor
  · rintro ⟨c, r, rfl, word, bracket⟩
    have kindChar : isKindChar c = true := isKindChar_of_isWord word
    have kind : (c :: r).takeWhile isKindChar = c :: r.takeWhile isKindChar :=
      List.takeWhile_cons_of_pos kindChar
    have isKind := isKind_parts (kind ▸ List.cons_ne_nil _ _)
    have later : '\n' ∉ (c :: r).dropWhile isKindChar := fun h =>
      oneLine (by simp [(List.dropWhile_sublist isKindChar).mem h])
    obtain ⟨d, said⟩ := Option.isSome_iff_exists.mp
      ((directive?_isSome_iff later).mpr (bracket_after_kind (List.mem_cons_of_mem c bracket)))
    have parsed := parseChars?_written isKind
    rw [written_parts, said] at parsed
    obtain ⟨parts, -, rfl⟩ := Option.map_eq_some_iff.mp said
    refine ⟨_, parsed, ?_⟩
    rw [ofParts, kind, String.toList_ofList, List.head?_cons]
    rintro ⟨⟩
    exact absurd word (by decide)
  · rintro ⟨d, parsed, noDash⟩
    obtain ⟨kind, rest, isKind, rfl, said⟩ := parseChars?_eq_some_iff.mp parsed
    obtain ⟨parts, -, rfl⟩ := Option.map_eq_some_iff.mp said
    have later : '\n' ∉ rest := fun h => oneLine (by simp [written, h])
    have bracket : ']' ∈ rest := (directive?_isSome_iff later).mp (by rw [said]; rfl)
    cases kind with
    | nil => exact absurd rfl isKind.named
    | cons c kind =>
        have word : isWord c = true :=
          isWord_of_isKindChar (isKind.inside c List.mem_cons_self) fun dash => noDash (by
            simp [ofParts, dash])
        exact ⟨c, kind ++ rest, rfl, word, List.mem_append_right _ bracket⟩

/-- A break is put after a quoted line exactly if the line is a directive with a kind that does not
start with a dash. -/
theorem normalize_breaks_iff {l : String} (oneLine : '\n' ∉ l.toList)
    (unindented : l.toList.head? ≠ some ' ') :
    normalize ("> " ++ l) ≠ "> " ++ l ↔
      ∃ d, parse? l = some d ∧ d.rawKind.toList.head? ≠ some '-' := by
  have quoted : "> " ++ l = String.ofList ('>' :: ' ' :: l.toList) := by
    rw [← String.toList_inj]
    simp
  have noBreak : '\n' ∉ '>' :: ' ' :: l.toList := by simpa using oneLine
  rw [parse?, ← opensCallout_iff oneLine unindented, quoted, normalize_line noBreak, normalizeLine]
  split
  · next opens => simp [opens]
  · next plain => simp [plain]

theorem tipLine_breaks :
    '\n' ∉ "[!tip]- Keys".toList ∧ "[!tip]- Keys".toList.head? ≠ some ' ' ∧
      parse? "[!tip]- Keys" = some ⟨"tip", "tip", none, .closed, "Keys"⟩ ∧
      normalize ("> " ++ "[!tip]- Keys") ≠ "> " ++ "[!tip]- Keys" := by
  have oneLine : '\n' ∉ "[!tip]- Keys".toList := by decide
  have unindented : "[!tip]- Keys".toList.head? ≠ some ' ' := by decide
  have parsed : parse? "[!tip]- Keys" = some ⟨"tip", "tip", none, .closed, "Keys"⟩ := by
    decide +kernel
  exact ⟨oneLine, unindented, parsed,
    (normalize_breaks_iff oneLine unindented).mpr ⟨_, parsed, by decide⟩⟩

/-- The title of a callout with a kind that starts with a dash stays joined to its body. -/
theorem dashedLine_unbroken :
    '\n' ∉ "[!-x] Title".toList ∧ "[!-x] Title".toList.head? ≠ some ' ' ∧
      parse? "[!-x] Title" = some ⟨"-x", "-x", none, .fixed, "Title"⟩ ∧
      ¬(normalize ("> " ++ "[!-x] Title") ≠ "> " ++ "[!-x] Title" ↔
        (parse? "[!-x] Title").isSome = true) := by
  have parsed : parse? "[!-x] Title" = some ⟨"-x", "-x", none, .fixed, "Title"⟩ := by
    decide +kernel
  have unbroken : normalize ("> " ++ "[!-x] Title") = "> " ++ "[!-x] Title" := by decide +kernel
  refine ⟨by decide, by decide, parsed, fun agree => ?_⟩
  exact agree.mpr (by rw [parsed]; rfl) unbroken

end NoteMarkup.Callout
