import Mathlib.Data.List.DropRight
import Mathlib.Data.List.TakeWhile
import NoteMarkup.Proofs.Lines
import NoteMarkup.Proofs.MarkSyntax
import NoteMarkup.Slug

/-! The characters of a page slug. Each step that makes a slug from a path either drops characters or
puts plain ones in, so an address that starts with a slug has no blank and no mark before its anchor. -/

namespace NoteMarkup

namespace Text

variable {c : Char} {s : List Char}

theorem isWord_of_isAlphanum (h : c.isAlphanum = true) : isWord c = true := by
  have small : c.val < 128 := by
    simp only [Char.isAlphanum, Char.isAlpha, Char.isUpper, Char.isLower, Char.isDigit] at h
    grind
  rw [isWord, if_pos small, h, Bool.true_or]

theorem trim_eq_self (visible : ∀ c ∈ s, isBlank c = false) : trim s = s := by
  have front : trimLeft s = s := by
    refine List.dropWhile_eq_self_iff.mpr fun some => ?_
    rw [visible _ (List.getElem_mem some)]
    exact Bool.false_ne_true
  rw [trim, front]
  refine List.rdropWhile_eq_self_iff.mpr fun some => ?_
  rw [visible _ (List.getLast_mem some)]
  exact Bool.false_ne_true

end Text

namespace Slug

open Text

variable {c : Char} {s : List Char}

/-- A character that means nothing in an address: no blank and none of `&`, `%`, `?`, `#`. -/
structure IsPlain (c : Char) : Prop where
  visible : isBlank c = false
  other : c ∉ ['&', '%', '?', '#']

instance : Decidable (IsPlain c) :=
  decidable_of_iff (isBlank c = false ∧ c ∉ ['&', '%', '?', '#'])
    ⟨fun h => ⟨h.1, h.2⟩, fun h => ⟨h.1, h.2⟩⟩

theorem isPlain_of_isAlphanum (h : c.isAlphanum = true) : IsPlain c := by
  refine ⟨?_, ?_⟩
  · refine TagText.isBlank_of_isTagChar ?_
    rw [TagText.isTagChar, isWord_of_isAlphanum h, Bool.true_or]
  · simp only [List.mem_cons, List.not_mem_nil, or_false, not_or]
    refine ⟨?_, ?_, ?_, ?_⟩ <;> rintro rfl <;> exact absurd h (by decide)

theorem isPlain_of_mem_word {word : List Char} (checked : word.all (fun d => decide (IsPlain d)) = true)
    (h : c ∈ word) : IsPlain c :=
  of_decide_eq_true (List.all_eq_true.mp checked c h)

theorem isPlain_of_mem_slugChar {d : Char} (h : d ∈ slugChar c) : IsPlain d := by
  unfold slugChar at h
  split at h
  · exact isPlain_of_mem_word (by decide) h
  · next visible =>
      split at h
      · exact isPlain_of_mem_word (by decide) h
      · next notAnd =>
          split at h
          · exact isPlain_of_mem_word (by decide) h
          · next notPercent =>
              split at h
              · cases h
              · next kept =>
                  rw [List.mem_singleton.mp h]
                  simp only [Bool.or_eq_true, beq_iff_eq, not_or] at notAnd notPercent kept
                  exact ⟨by simpa using visible, by simp [notAnd, notPercent, kept]⟩

/-- A character that stands for no other is in a slug only if it is in the path. -/
theorem eq_of_mem_slugChar {d : Char} (other : d ∉ "-andpercent".toList) (h : d ∈ slugChar c) :
    c = d := by
  have inserted : ∀ word ∈ [['-'], ['-', 'a', 'n', 'd', '-'], ['-', 'p', 'e', 'r', 'c', 'e', 'n', 't']],
      word ⊆ "-andpercent".toList := by decide
  unfold slugChar at h
  split at h
  · exact absurd (inserted _ (by simp) h) other
  split at h
  · exact absurd (inserted _ (by simp) h) other
  split at h
  · exact absurd (inserted _ (by simp) h) other
  split at h
  · cases h
  · exact (List.mem_singleton.mp h).symm

theorem mem_of_mem_slugSegment (other : c ∉ "-andpercent".toList) (h : c ∈ slugSegment s) : c ∈ s := by
  obtain ⟨d, hd, inside⟩ := List.mem_flatMap.mp h
  exact eq_of_mem_slugChar other inside ▸ hd

theorem isPlain_of_mem_slugSegment (h : c ∈ slugSegment s) : IsPlain c := by
  obtain ⟨d, -, hd⟩ := List.mem_flatMap.mp h
  exact isPlain_of_mem_slugChar hd

theorem mem_of_mem_dropEndSlash (h : c ∈ dropEndSlash s) : c ∈ s := by
  unfold dropEndSlash at h
  split at h
  · exact List.dropLast_subset s h
  · exact h

theorem isPlain_of_mem_slugPath (h : c ∈ slugPath s) : IsPlain c := by
  rcases mem_joinWith (mem_of_mem_dropEndSlash h) with slash | ⟨part, member, inPart⟩
  · rw [List.mem_singleton.mp slash]
    decide
  · obtain ⟨segment, -, rfl⟩ := List.mem_map.mp member
    exact isPlain_of_mem_slugSegment inPart

theorem isPlain_of_mem_renameIndex (plain : ∀ c ∈ s, IsPlain c) (h : c ∈ renameIndex s) :
    IsPlain c := by
  unfold renameIndex at h
  dsimp only at h
  split at h
  · rcases List.mem_append.mp h with front | name
    · exact plain c (List.mem_of_mem_take front)
    · exact isPlain_of_mem_word (by decide) name
  · exact plain c h

theorem isPlain_of_mem_extensionHere {ext : List Char} (h : extensionHere? s = some ext)
    (hc : c ∈ ext) : IsPlain c := by
  unfold extensionHere? at h
  split at h
  · dsimp only at h
    split at h
    · cases h
      rcases List.mem_cons.mp hc with rfl | name
      · decide
      · exact isPlain_of_isAlphanum (List.mem_takeWhile_imp name)
    · cases h
  · cases h

theorem isPlain_of_mem_extension {ext : List Char} (h : extension? s = some ext) (hc : c ∈ ext) :
    IsPlain c := by
  induction s with
  | nil => cases h
  | cons d s ih =>
      rw [extension?] at h
      cases here : extensionHere? (d :: s) with
      | none => exact ih (by rwa [here] at h)
      | some found =>
          rw [here] at h
          exact isPlain_of_mem_extensionHere (here.trans h) hc

/-- Every character of a page slug is plain, whatever the path. -/
theorem isPlain_of_mem_pageChars {path : List Char} {dropExtension : Bool}
    (h : c ∈ pageChars path dropExtension) : IsPlain c := by
  unfold pageChars at h
  dsimp only at h
  split at h
  · exact isPlain_of_mem_renameIndex (fun _ => isPlain_of_mem_slugPath) h
  · next ext found =>
      rcases List.mem_append.mp h with stem | kept
      · exact isPlain_of_mem_renameIndex (fun _ => isPlain_of_mem_slugPath) stem
      · split at kept
        · cases kept
        · exact isPlain_of_mem_extension found kept

theorem isPlain_of_mem_page {path : String} {dropExtension : Bool}
    (h : c ∈ (page path dropExtension).toList) : IsPlain c := by
  rw [page, String.toList_ofList] at h
  exact isPlain_of_mem_pageChars h

end Slug

end NoteMarkup
