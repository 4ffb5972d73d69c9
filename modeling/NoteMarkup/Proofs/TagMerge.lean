import NoteMarkup.Pipeline
import NoteMarkup.Proofs.FirstSeen
import NoteMarkup.Proofs.TagSlugs

/-! The tags of a note. Those of the front matter are put into slug form, those found in the note are
slugs already, and of both the first occurrences are kept. Slugs are their own slugs, so merging what
was merged changes nothing. -/

namespace NoteMarkup.Pipeline

open Text

variable {collected : List String} {t : String}

/-! ### The tags of the front matter -/

/-- What parts the tags of a text. -/
def isGap (c : Char) : Bool := isBlank c || c == ','

/-- The character, a space for a comma. -/
def spaced (c : Char) : Char := if c == ',' then ' ' else c

theorem isBlank_spaced (c : Char) : isBlank (spaced c) = isGap c := by
  by_cases comma : c = ','
  · rw [comma]
    decide
  · simp [spaced, isGap, comma]

theorem spaced_of_not_isGap {c : Char} (h : isGap c = false) : spaced c = c := by
  have other : c ≠ ',' := by
    rintro rfl
    cases h
  simp [spaced, other]

theorem wordsFrom_spaced (word s : List Char) (free : ∀ c ∈ word, isGap c = false) :
    wordsFrom word (s.map spaced) = ((word.reverse ++ s).splitOnP isGap).filter (· ≠ []) := by
  have parted : word.reverse.splitOnP isGap = [word.reverse] :=
    List.splitOnP_eq_singleton fun c hc => by simp [free c (List.mem_reverse.mp hc)]
  induction s generalizing word with
  | nil =>
      rw [List.append_nil, parted, List.map_nil, wordsFrom]
      cases word <;> simp
  | cons c s ih =>
      rw [List.map_cons, wordsFrom, isBlank_spaced]
      by_cases gap : isGap c = true
      · rw [if_pos gap, ih [] (by simp) rfl, List.splitOnP_append_cons _ _ gap, parted]
        cases word <;> simp
      · have inWord : isGap c = false := by simpa using gap
        have longer : ∀ d ∈ c :: word, isGap d = false := List.forall_mem_cons.mpr ⟨inWord, free⟩
        rw [if_neg gap, spaced_of_not_isGap inWord, ih (c :: word) longer]
        · simp
        · exact List.splitOnP_eq_singleton fun d hd => by simp [longer d (List.mem_reverse.mp hd)]

/-- A text gives its longest runs without a blank and without a comma. -/
theorem givenTags_str (s : String) :
    givenTags (.str s) = ((s.toList.splitOnP isGap).filter (· ≠ [])).map String.ofList := by
  have spread := wordsFrom_spaced [] s.toList (by simp)
  exact congrArg (List.map String.ofList) spread

end NoteMarkup.Pipeline
