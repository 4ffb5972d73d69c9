import NoteMarkup.Proofs.Lines
import NoteMarkup.Proofs.SlugText

/-! The steps that make a page slug from a path, each as an equation on texts: segments are put into slug
form character by character, an extension is what stands at the end of the path, and the own note of a
folder is renamed. -/

namespace NoteMarkup.Slug

open Text

variable {s t e : List Char} {c : Char}

/-! ### Segments -/

theorem slugChar_of_isPlain (h : IsPlain c) : slugChar c = [c] := by
  have other := h.other
  simp only [List.mem_cons, List.not_mem_nil, or_false, not_or] at other
  simp [slugChar, h.visible, other]

theorem slugSegment_append (s t : List Char) : slugSegment (s ++ t) = slugSegment s ++ slugSegment t :=
  List.flatMap_append

theorem slugSegment_eq_self (plain : ∀ c ∈ s, IsPlain c) : slugSegment s = s := by
  induction s with
  | nil => rfl
  | cons c s ih =>
      obtain ⟨first, later⟩ := List.forall_mem_cons.mp plain
      rw [slugSegment, List.flatMap_cons, slugChar_of_isPlain first]
      exact congrArg (c :: ·) (ih later)

/-- The separator of segments is no character that a slug replaces. -/
theorem slugSegment_slash (s : List Char) : slugSegment ('/' :: s) = '/' :: slugSegment s := by
  rw [slugSegment, List.flatMap_cons, slugChar_of_isPlain (by decide)]
  rfl

theorem join_slugSegments (s : List Char) :
    joinWith ['/'] ((splitAtChar '/' s).map slugSegment) = slugSegment s := by
  induction s with
  | nil => rfl
  | cons c s ih =>
      rw [splitAtChar]
      split
      · next slash =>
          rw [beq_iff_eq.mp slash, slugSegment_slash, ← ih]
          cases split : splitAtChar '/' s with
          | nil => exact absurd split (splitAtChar_ne_nil '/' s)
          | cons part parts => rfl
      · cases split : splitAtChar '/' s with
        | nil => exact absurd split (splitAtChar_ne_nil '/' s)
        | cons part parts =>
            rw [split] at ih
            change _ = slugChar c ++ slugSegment s
            rw [← ih]
            cases parts <;> simp [joinWith, slugSegment]

theorem slugPath_eq (s : List Char) : slugPath s = dropEndSlash (slugSegment s) :=
  congrArg dropEndSlash (join_slugSegments s)

/-- The separators of a slug are those of the path. -/
theorem slugSegment_eq_append_slash {x y : List Char} :
    slugSegment s = x ++ '/' :: y ↔
      ∃ a b, s = a ++ '/' :: b ∧ slugSegment a = x ∧ slugSegment b = y := by
  constructor
  · intro h
    induction s generalizing x with
    | nil => simp [slugSegment] at h
    | cons c s ih =>
        change slugChar c ++ slugSegment s = _ at h
        rcases List.append_eq_append_iff.mp h with ⟨x', rfl, later⟩ | ⟨z, here, rest⟩
        · obtain ⟨a, b, rfl, rfl, rfl⟩ := ih later
          exact ⟨c :: a, b, rfl, rfl, rfl⟩
        · cases z with
          | nil =>
              obtain ⟨a, b, rfl, none, rfl⟩ := ih (x := []) rest.symm
              refine ⟨c :: a, b, rfl, ?_, rfl⟩
              change slugChar c ++ slugSegment a = x
              rw [none, here, List.append_nil, List.append_nil]
          | cons d z =>
              obtain ⟨rfl, after⟩ := List.cons.inj rest
              obtain rfl : c = '/' :=
                eq_of_mem_slugChar (by decide) (here ▸ List.mem_append_right _ List.mem_cons_self)
              rw [slugChar_of_isPlain (by decide)] at here
              cases x with
              | nil =>
                  obtain rfl : [] = z := (List.cons.inj here).2
                  exact ⟨[], s, rfl, rfl, after.symm⟩
              | cons d x =>
                  have longer := congrArg List.length here
                  simp at longer
  · rintro ⟨a, b, rfl, rfl, rfl⟩
    rw [slugSegment_append, slugSegment_slash]

/-! ### Slashes at the ends -/

theorem dropEndSlash_append_slash (s : List Char) : dropEndSlash (s ++ ['/']) = s := by
  simp [dropEndSlash]

theorem dropEndSlash_of_getLast (h : s.getLast? ≠ some '/') : dropEndSlash s = s := by
  simp [dropEndSlash, h]

theorem length_dropEndSlash_le (s : List Char) : (dropEndSlash s).length ≤ s.length := by
  unfold dropEndSlash
  split <;> simp

/-- The text without one `/` at its start. -/
def dropFrontSlash (s : List Char) : List Char :=
  match s with
  | '/' :: r => r
  | r => r

theorem stripSlashes_eq (s : List Char) : stripSlashes s = dropEndSlash (dropFrontSlash s) := by
  cases s with
  | nil => rfl
  | cons c s => by_cases slash : c = '/' <;> simp [stripSlashes, dropFrontSlash, slash]

theorem dropFrontSlash_append (front : e.head? ≠ some '/') (s : List Char) :
    dropFrontSlash (s ++ e) = dropFrontSlash s ++ e := by
  cases s with
  | nil =>
      cases e with
      | nil => rfl
      | cons c e =>
          have other : c ≠ '/' := fun same => front (congrArg some same)
          simp [dropFrontSlash, other]
  | cons c s => by_cases slash : c = '/' <;> simp [dropFrontSlash, slash]

theorem dropFrontSlash_suffix (s : List Char) : dropFrontSlash s <:+ s := by
  unfold dropFrontSlash
  split
  · exact List.suffix_cons _ _
  · exact List.suffix_rfl

/-! ### Extensions -/

/-- A point and at least one letter or digit. -/
inductive IsExtension : List Char → Prop where
  | point {name : List Char} (some : name ≠ []) (inside : ∀ c ∈ name, c.isAlphanum = true) :
      IsExtension ('.' :: name)

theorem IsExtension.isPlain (h : IsExtension e) : ∀ c ∈ e, IsPlain c := by
  obtain ⟨some, inside⟩ := h
  exact List.forall_mem_cons.mpr ⟨by decide, fun c hc => isPlain_of_isAlphanum (inside c hc)⟩

theorem isExtension_of_mem_pageExtensions (h : e ∈ pageExtensions) : IsExtension e := by
  have note : ∀ c ∈ ['m', 'd'], c.isAlphanum = true := List.all_eq_true.mp rfl
  have page : ∀ c ∈ ['h', 't', 'm', 'l'], c.isAlphanum = true := List.all_eq_true.mp rfl
  rcases List.mem_cons.mp h with rfl | h
  · exact .point (List.cons_ne_nil _ _) note
  · rw [List.mem_singleton.mp h]
    exact .point (List.cons_ne_nil _ _) page

theorem IsExtension.getLast (h : IsExtension e) (s : List Char) :
    ∃ c, (s ++ e).getLast? = some c ∧ c.isAlphanum = true := by
  obtain ⟨some, inside⟩ := h
  rename_i name
  refine ⟨name.getLast some, ?_, inside _ (List.getLast_mem some)⟩
  simp [List.getLast?_append, List.getLast?_cons, List.getLast?_eq_getLast_of_ne_nil some]

theorem IsExtension.getLast_ne (h : IsExtension e) (other : c.isAlphanum = false) (s : List Char) :
    (s ++ e).getLast? ≠ some c := by
  obtain ⟨d, last, inside⟩ := h.getLast s
  rw [last]
  rintro ⟨⟩
  rw [other] at inside
  cases inside

/-- What is left of a text at its end is empty or a line feed. -/
theorem atTextEnd_iff : atTextEnd s = true ↔ s = [] ∨ s = ['\n'] := by
  unfold atTextEnd
  split <;> simp_all

theorem extensionHere?_eq_some_iff :
    extensionHere? s = some e ↔ ∃ rest, s = e ++ rest ∧ IsExtension e ∧ atTextEnd rest = true := by
  constructor
  · intro h
    unfold extensionHere? at h
    split at h
    · next r =>
        dsimp only at h
        split at h
        · next found =>
            rw [Bool.and_eq_true, Bool.not_eq_true'] at found
            obtain rfl := Option.some.inj h
            refine ⟨r.dropWhile Char.isAlphanum, ?_, .point ?_ ?_, found.2⟩
            · rw [List.cons_append, List.takeWhile_append_dropWhile]
            · simpa using found.1
            · exact fun c => List.mem_takeWhile_imp
        · cases h
    · cases h
  · rintro ⟨rest, rfl, ⟨some, inside⟩, ends⟩
    have stop : ∀ c, rest.head? = .some c → Char.isAlphanum c = false := by
      intro c head
      rcases atTextEnd_iff.mp ends with rfl | rfl
      · cases head
      · obtain rfl := Option.some.inj head
        decide
    simp [extensionHere?, takeWhile_append_stop inside stop, dropWhile_append_stop inside stop, ends,
      some]

/-- No extension starts before another point. -/
theorem extensionHere?_of_point (h : '.' ∈ s) : extensionHere? (c :: s) = none := by
  rw [Option.eq_none_iff_forall_ne_some]
  intro e found
  obtain ⟨rest, split, ⟨some, inside⟩, ends⟩ := extensionHere?_eq_some_iff.mp found
  obtain rfl := (List.cons.inj split).2
  rcases List.mem_append.mp h with name | rest
  · exact absurd (inside _ name) (by decide)
  · rcases atTextEnd_iff.mp ends with rfl | rfl
    · cases rest
    · exact absurd rest (by decide)

/-- The extension of a path ends it, or stands before a line feed that does. -/
theorem extension?_eq_some_iff :
    extension? s = some e ↔
      ∃ stem rest, s = stem ++ e ++ rest ∧ IsExtension e ∧ atTextEnd rest = true := by
  constructor
  · intro h
    induction s with
    | nil => cases h
    | cons c s ih =>
        rw [extension?] at h
        cases here : extensionHere? (c :: s) with
        | some found =>
            rw [here] at h
            obtain rfl := Option.some.inj h
            obtain ⟨rest, split, isExtension, ends⟩ := extensionHere?_eq_some_iff.mp here
            exact ⟨[], rest, split, isExtension, ends⟩
        | none =>
            rw [here] at h
            obtain ⟨stem, rest, rfl, isExtension, ends⟩ := ih h
            exact ⟨c :: stem, rest, rfl, isExtension, ends⟩
  · rintro ⟨stem, rest, rfl, isExtension, ends⟩
    induction stem with
    | nil =>
        have here := extensionHere?_eq_some_iff.mpr ⟨rest, rfl, isExtension, ends⟩
        cases isExtension
        rw [List.nil_append, List.cons_append, extension?, ← List.cons_append, here]
        rfl
    | cons c stem ih =>
        have point : '.' ∈ stem ++ e ++ rest := by
          cases isExtension
          simp
        rw [List.cons_append, List.cons_append, extension?, extensionHere?_of_point point]
        exact ih

/-! ### The own note of a folder -/

/-- The slug of a folder's own note. -/
def IsOwn (x : List Char) : Prop := x = "_index".toList ∨ '/' :: "_index".toList <:+ x

theorem renameIndex_of_not_isOwn {x : List Char} (h : ¬IsOwn x) : renameIndex x = x := by
  have other : ¬(x == "_index".toList || ('/' :: "_index".toList).isSuffixOf x) = true := by
    rw [Bool.or_eq_true, beq_iff_eq, List.isSuffixOf_iff_suffix]
    exact h
  simp only [renameIndex]
  rw [if_neg other]

theorem length_renameIndex_of_isOwn {x : List Char} (h : IsOwn x) :
    (renameIndex x).length < x.length := by
  have own : (x == "_index".toList || ('/' :: "_index".toList).isSuffixOf x) = true := by
    rw [Bool.or_eq_true, beq_iff_eq, List.isSuffixOf_iff_suffix]
    exact h
  have long : 6 ≤ x.length := by
    rcases h with rfl | suffix
    · decide
    · exact le_trans (by decide) suffix.length_le
  simp only [renameIndex]
  rw [if_pos own]
  simp
  omega

theorem length_renameIndex_le (x : List Char) : (renameIndex x).length ≤ x.length := by
  by_cases own : IsOwn x
  · exact (length_renameIndex_of_isOwn own).le
  · rw [renameIndex_of_not_isOwn own]

theorem not_isOwn_append (other : c ≠ 'x') (x : List Char) : ¬IsOwn (x ++ [c]) := by
  have last : (x ++ [c]).getLast? = some c := List.getLast?_concat
  have apart : some c ≠ some 'x' := fun same => other (Option.some.inj same)
  rintro (same | ⟨front, same⟩)
  · rw [same] at last
    exact apart (last.symm.trans (by decide))
  · rw [← same] at last
    exact apart (last.symm.trans (by simp))

/-- A text with an extension is no own note. -/
theorem IsExtension.not_isOwn (h : IsExtension e) (x : List Char) : ¬IsOwn (x ++ e) := by
  have apart : ¬"_index".toList <:+ x ++ e := by
    intro suffix
    obtain ⟨some, inside⟩ := h
    rcases List.suffix_or_suffix_of_suffix suffix (List.suffix_append _ _) with later | earlier
    · rcases List.suffix_cons_iff.mp later with same | inName
      · simp at same
      · exact absurd (inside '_' (inName.subset (by decide))) (by decide)
    · exact absurd (earlier.subset List.mem_cons_self) (by decide)
  rintro (same | suffix)
  · exact apart (same ▸ List.suffix_rfl)
  · exact apart ((List.suffix_cons _ _).trans suffix)

end NoteMarkup.Slug
