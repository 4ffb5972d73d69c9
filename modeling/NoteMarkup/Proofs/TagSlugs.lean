import NoteMarkup.Proofs.LowerCase
import NoteMarkup.Proofs.PathSlugs

/-! Tag slugs are canonical. What a slug is made of is plain and in lower case, and such a text is its own
slug. Lower case makes no mark, no blank and no `/`, so a slug has the segments of the value. -/

namespace NoteMarkup.Slug

open Text

variable {c : Char} {s t : List Char}

theorem isSmall_of_not_isPlain (h : ¬IsPlain c) : isSmall c = false := by
  by_cases blank : isBlank c = true
  · exact isSmall_of_isBlank blank
  · have mark : c ∈ ['&', '%', '?', '#'] := by
      by_contra other
      exact h ⟨by simpa using blank, other⟩
    simp only [List.mem_cons, List.not_mem_nil, or_false] at mark
    rcases mark with rfl | rfl | rfl | rfl <;> decide +kernel

/-! ### One segment -/

/-- The slug of one segment of a tag value. -/
def tagSegment (s : List Char) : List Char := lower (slugSegment s)

theorem tagChars_eq (s : List Char) :
    tagChars s = joinWith ['/'] ((splitAtChar '/' s).map tagSegment) := rfl

theorem isPlain_of_mem_tagSegment (h : c ∈ tagSegment s) : IsPlain c := by
  by_contra other
  exact other (isPlain_of_mem_slugSegment (mem_of_mem_lower (isSmall_of_not_isPlain other) h))

theorem free_tagSegment (h : '/' ∉ s) : '/' ∉ tagSegment s := by
  intro slash
  have inSegment : '/' ∈ slugSegment s := mem_of_mem_lower (by decide +kernel) slash
  exact h (mem_of_mem_slugSegment (by decide) inSegment)

theorem tagSegment_eq_self (plain : ∀ c ∈ s, IsPlain c) (small : ∀ c ∈ s, IsLower c) :
    tagSegment s = s := by
  rw [tagSegment, slugSegment_eq_self plain, lower_eq_self small]

/-! ### The whole value -/

theorem splitAtChar_tagChars (s : List Char) :
    splitAtChar '/' (tagChars s) = (splitAtChar '/' s).map tagSegment := by
  refine splitAtChar_joinWith (by simpa using splitAtChar_ne_nil '/' s) fun part member => ?_
  obtain ⟨segment, listed, rfl⟩ := List.mem_map.mp member
  exact free_tagSegment (free_of_mem_splitAtChar listed)

theorem mem_tagChars (h : c ∈ tagChars s) : c = '/' ∨ ∃ segment, c ∈ tagSegment segment := by
  rcases mem_joinWith h with slash | ⟨part, member, inPart⟩
  · exact .inl (List.mem_singleton.mp slash)
  · obtain ⟨segment, -, rfl⟩ := List.mem_map.mp member
    exact .inr ⟨segment, inPart⟩

theorem isPlain_of_mem_tagChars (h : c ∈ tagChars s) : IsPlain c := by
  rcases mem_tagChars h with rfl | ⟨segment, member⟩
  · decide
  · exact isPlain_of_mem_tagSegment member

theorem isLower_of_mem_tagChars (h : c ∈ tagChars s) : IsLower c := by
  rcases mem_tagChars h with rfl | ⟨segment, member⟩
  · exact isLower_of_not_covers (by decide) (by decide +kernel)
  · exact isLower_of_mem_lower member

/-- The slugs are the texts of plain characters that are in lower case. -/
theorem tagChars_eq_self_iff : tagChars s = s ↔ (∀ c ∈ s, IsPlain c) ∧ lower s = s := by
  constructor
  · intro same
    rw [← same]
    exact ⟨fun _ => isPlain_of_mem_tagChars, lower_eq_self fun _ => isLower_of_mem_tagChars⟩
  · rintro ⟨plain, small⟩
    have each : (splitAtChar '/' s).map tagSegment = splitAtChar '/' s := by
      refine (List.map_congr_left fun part member => ?_).trans (List.map_id _)
      have inText : ∀ c ∈ part, c ∈ s := fun _ => mem_of_mem_splitAtChar member
      refine tagSegment_eq_self (fun c hc => plain c (inText c hc)) fun c hc => ?_
      exact isLower_of_mem_lower (small.symm ▸ inText c hc)
    rw [tagChars_eq, each, joinWith_splitAtChar]

theorem lower_tagChars (s : List Char) : lower (tagChars s) = tagChars s :=
  lower_eq_self fun _ => isLower_of_mem_tagChars

theorem tagChars_tagChars (s : List Char) : tagChars (tagChars s) = tagChars s :=
  tagChars_eq_self_iff.mpr ⟨fun _ => isPlain_of_mem_tagChars, lower_tagChars s⟩

theorem tagChars_append (s t : List Char) :
    tagChars (s ++ '/' :: t) = tagChars s ++ '/' :: tagChars t := by
  rw [tagChars_eq, splitAtChar_append, List.map_append, joinWith_append, ← tagChars_eq, ← tagChars_eq]
  · simpa using splitAtChar_ne_nil '/' s
  · simpa using splitAtChar_ne_nil '/' t

@[simp] theorem ofTag_ofTag (value : String) : ofTag (ofTag value) = ofTag value := by
  rw [ofTag, ofTag, String.toList_ofList, tagChars_tagChars]

/-- The slug of a tag value is its own slug, with the segments of the value, without blanks and marks
and in lower case; and the slug of a path is the path of the slugs. -/
theorem ofTag_canonical (value front back : String) :
    ofTag (ofTag value) = ofTag value ∧
    (splitAtChar '/' (ofTag value).toList).length = (splitAtChar '/' value.toList).length ∧
    (∀ c ∈ (ofTag value).toList, isBlank c = false ∧ c ∉ ['&', '%', '?', '#']) ∧
    lower (ofTag value).toList = (ofTag value).toList ∧
    ofTag (front ++ "/" ++ back) = ofTag front ++ "/" ++ ofTag back := by
  refine ⟨ofTag_ofTag value, ?_, ?_, ?_, ?_⟩
  · rw [ofTag, String.toList_ofList, splitAtChar_tagChars, List.length_map]
  · intro c member
    rw [ofTag, String.toList_ofList] at member
    have plain := isPlain_of_mem_tagChars member
    exact ⟨plain.visible, plain.other⟩
  · rw [ofTag, String.toList_ofList, lower_tagChars]
  · apply String.toList_inj.mp
    simp [ofTag, tagChars_append]

end NoteMarkup.Slug
