import NoteMarkup.Proofs.CalloutSyntax

/-! Directive lines as they are written: a kind, metadata after a bar, a fold mark, and a title after a
space. The kind is read back whatever the rest of the line is. Metadata, fold mark and title are read
back unless the line has no metadata and its title has a bracket: metadata is looked for without its
bar, so all that stands before the bracket of the title is taken for it. -/

namespace NoteMarkup.Callout

open Text

variable {kind metadata s : List Char}

/-- What a directive line says after its kind. -/
def writtenRest (metadata : Option (List Char)) (fold : Fold) (title : List Char) : List Char :=
  metadata.elim [] ('|' :: ·) ++ ']' :: (fold.mark.toList ++ ' ' :: title)

/-- The line of a directive. -/
def directiveLine (kind : String) (metadata : Option String) (fold : Fold) (title : String) : String :=
  "[!" ++ kind ++ metadata.elim "" ("|" ++ ·) ++ "]" ++ fold.mark ++ " " ++ title

theorem toList_directiveLine (kind : String) (metadata : Option String) (fold : Fold)
    (title : String) :
    (directiveLine kind metadata fold title).toList =
      written kind.toList (writtenRest (metadata.map String.toList) fold title.toList) := by
  cases metadata <;> simp [directiveLine, written, writtenRest]

theorem isKind_writtenRest (named : kind ≠ []) (inside : ∀ c ∈ kind, isKindChar c = true)
    (metadata : Option (List Char)) (fold : Fold) (title : List Char) :
    IsKind kind (writtenRest metadata fold title) := by
  refine ⟨named, inside, ?_⟩
  cases metadata with
  | none =>
      rintro _ ⟨⟩
      decide
  | some m =>
      rintro _ ⟨⟩
      decide

theorem trim_space (s : List Char) : trim (' ' :: s) = trim s := by
  have blank : isBlank ' ' = true := by decide
  rw [trim, trim, trimLeft, List.dropWhile_cons_of_pos blank, trimLeft]

theorem splitFold_mark (fold : Fold) (s : List Char) :
    splitFold (fold.mark.toList ++ ' ' :: s) = (fold, ' ' :: s) := by
  cases fold <;> rfl

/-- Metadata that is there ends at the bracket after it. -/
theorem splitMetadata?_append (some : metadata ≠ []) (free : ']' ∉ metadata)
    (oneLine : '\n' ∉ metadata) (after : List Char) :
    splitMetadata? (metadata ++ ']' :: after) = .some (.some metadata, after) := by
  cases metadata with
  | nil => exact absurd rfl some
  | cons c m =>
      obtain ⟨first, later⟩ := not_or.mp (mt List.mem_cons.mpr oneLine)
      have noBreak : (c == '\n') = false := by simpa using Ne.symm first
      rw [List.cons_append, splitMetadata?, noBreak, if_neg Bool.false_ne_true,
        untilBracket?_append (fun h => free (List.mem_cons_of_mem c h)) later]

/-- Where metadata is left out it is absent if no other bracket follows. -/
theorem splitMetadata?_bracket (free : ']' ∉ s) (oneLine : '\n' ∉ s) :
    splitMetadata? (']' :: s) = some (none, s) := by
  have unclosed : untilBracket? s = none := by
    rw [← Option.not_isSome_iff_eq_none, untilBracket?_isSome_iff oneLine]
    exact free
  rw [splitMetadata?, if_neg (by decide), unclosed]
  rfl

/-- Where metadata is left out it is taken from before another bracket if one follows. -/
theorem splitMetadata?_brackets (free : ']' ∉ s) (oneLine : '\n' ∉ s) (after : List Char) :
    splitMetadata? (']' :: (s ++ ']' :: after)) = some (some (']' :: s), after) := by
  rw [splitMetadata?, if_neg (by decide), untilBracket?_append free oneLine]

theorem ofParts_fold (kind : List Char) (metadata : Option (List Char)) (fold : Fold)
    (title : List Char) :
    ofParts kind (metadata, fold.mark.toList ++ ' ' :: title) =
      ⟨canonical (String.ofList kind), String.ofList kind, metadata.map String.ofList, fold,
        String.ofList (trim title)⟩ := by
  rw [ofParts, splitFold_mark, trim_space]

theorem free_fold {c : Char} (other : c ≠ '+' ∧ c ≠ '-' ∧ c ≠ ' ') (free : c ∉ s) (fold : Fold) :
    c ∉ fold.mark.toList ++ ' ' :: s := by
  cases fold <;> simp [Fold.mark, other, free]

/-- The parts of a directive are such as a line can have them. -/
structure Writable (kind : String) (metadata : Option String) (title : String) : Prop where
  named : kind ≠ ""
  inside : ∀ c ∈ kind.toList, isKindChar c = true
  metadata : ∀ m, metadata = some m → m ≠ "" ∧ ']' ∉ m.toList ∧ '\n' ∉ m.toList
  oneLine : '\n' ∉ title.toList

/-- The directive that a line is written for. -/
def directiveOf (kind : String) (metadata : Option String) (fold : Fold) (title : String) :
    Directive :=
  ⟨canonical kind, kind, metadata, fold, String.ofList (trim title.toList)⟩

section Line

variable {kind title : String} {metadata : Option String}

/-- After the kind and the bar a line is read as its metadata and what follows. -/
theorem parse?_directiveLine (h : Writable kind metadata title) (fold : Fold) :
    parse? (directiveLine kind metadata fold title) =
      (splitMetadata? ((metadata.elim [] String.toList) ++
        ']' :: (fold.mark.toList ++ ' ' :: title.toList))).map (ofParts kind.toList) := by
  have named : kind.toList ≠ [] := by simpa using h.named
  rw [parse?, toList_directiveLine,
    parseChars?_written (isKind_writtenRest named h.inside _ fold title.toList)]
  cases metadata <;> rfl

theorem parse?_withMetadata {m : String} (h : Writable kind (some m) title) (fold : Fold) :
    parse? (directiveLine kind (some m) fold title) = some (directiveOf kind (some m) fold title) := by
  obtain ⟨some, free, oneLine⟩ := h.metadata m rfl
  rw [parse?_directiveLine h, Option.elim_some,
    splitMetadata?_append (by simpa using some) free oneLine, Option.map_some, ofParts_fold]
  simp [directiveOf]

theorem parse?_plainTitle (h : Writable kind none title) (free : ']' ∉ title.toList) (fold : Fold) :
    parse? (directiveLine kind none fold title) = some (directiveOf kind none fold title) := by
  rw [parse?_directiveLine h, Option.elim_none, List.nil_append,
    splitMetadata?_bracket (free_fold (by decide) free fold) (free_fold (by decide) h.oneLine fold),
    Option.map_some, ofParts_fold]
  simp [directiveOf]

/-- The title is cut at its bracket, and what stands before it is metadata. -/
theorem parse?_bracketTitle (h : Writable kind none title) (bracket : ']' ∈ title.toList)
    (fold : Fold) :
    ∃ d m, parse? (directiveLine kind none fold title) = some d ∧ d.rawKind = kind ∧
      d.kind = canonical kind ∧ d.metadata = some m := by
  obtain ⟨front, after, split, free⟩ := List.eq_append_cons_of_mem bracket
  have oneLine : '\n' ∉ front := fun h' => h.oneLine (split ▸ List.mem_append_left _ h')
  have line : ']' :: (fold.mark.toList ++ ' ' :: title.toList) =
      ']' :: ((fold.mark.toList ++ ' ' :: front) ++ ']' :: after) := by
    simp [split]
  have parsed := parse?_directiveLine h fold
  rw [Option.elim_none, List.nil_append, line,
    splitMetadata?_brackets (free_fold (by decide) free fold) (free_fold (by decide) oneLine fold),
    Option.map_some] at parsed
  exact ⟨_, _, parsed, String.ofList_toList, by rw [ofParts, String.ofList_toList], rfl⟩

/-- A directive line gives its kind, and it gives all that it was written for exactly if it has
metadata or its title has no bracket. -/
theorem directive_reads_back_iff (h : Writable kind metadata title) (fold : Fold) :
    ∃ d, parse? (directiveLine kind metadata fold title) = some d ∧ d.rawKind = kind ∧
      d.kind = canonical kind ∧
      (d = directiveOf kind metadata fold title ↔ metadata.isSome = true ∨ ']' ∉ title.toList) := by
  cases metadata with
  | some m => exact ⟨_, parse?_withMetadata h fold, rfl, rfl, by simp⟩
  | none =>
      by_cases bracket : ']' ∈ title.toList
      · obtain ⟨d, m, parsed, rawKind, kind, misread⟩ := parse?_bracketTitle h bracket fold
        refine ⟨d, parsed, rawKind, kind, iff_of_false (fun same => ?_) (by simpa using bracket)⟩
        rw [same] at misread
        cases misread
      · exact ⟨_, parse?_plainTitle h bracket fold, rfl, rfl, by simp [bracket]⟩

end Line

theorem bracketedTitle_reads_back :
    Writable "Warning" (some "wide|red") "see [1]- +" ∧
      parse? "[!Warning|wide|red]- see [1]- +" =
        some ⟨"warning", "Warning", some "wide|red", .closed, "see [1]- +"⟩ := by
  have writable : Writable "Warning" (some "wide|red") "see [1]- +" := by
    refine ⟨by decide, List.all_eq_true.mp (by decide), ?_, by decide⟩
    rintro _ ⟨⟩
    decide
  obtain ⟨d, parsed, -, -, same⟩ := directive_reads_back_iff writable .closed
  rw [same.mpr (.inl rfl)] at parsed
  exact ⟨writable, parsed.trans (by decide +kernel)⟩

/-- The text up to the bracket of the title is taken for metadata. -/
theorem bracketedTitle_cut :
    Writable "note" none "see [1]" ∧
      parse? (directiveLine "note" none .fixed "see [1]") =
        some ⟨"note", "note", some "] see [1", .fixed, ""⟩ ∧
      directiveOf "note" none .fixed "see [1]" = ⟨"note", "note", none, .fixed, "see [1]"⟩ ∧
      parse? (directiveLine "note" none .fixed "see [1]") ≠
        some (directiveOf "note" none .fixed "see [1]") := by
  refine ⟨⟨by decide, List.all_eq_true.mp (by decide), nofun, by decide⟩, ?_⟩
  decide +kernel

end NoteMarkup.Callout
