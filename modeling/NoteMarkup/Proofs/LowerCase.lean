import NoteMarkup.Proofs.MarkSyntax
import NoteMarkup.Text.Case

/-! What lower case leaves alone. The image of a letter has no lower case of its own, and the one letter
whose lower case depends on what stands around it is never an image. So a text in lower case stays as
it is, and a character that is no small letter is there only if it was there before. -/

namespace NoteMarkup.Text

variable {c d : Char} {s before after : List Char}

theorem CaseRun.covers_iff {r : CaseRun} {n : Nat} :
    r.covers n = true ↔ r.first ≤ n ∧ n ≤ r.last ∧ (n - r.first) % r.step = 0 := by
  simp [CaseRun.covers, and_assoc]

/-- The images of the first run lie outside the second one, or between its members. -/
def CaseRun.IsApart (r s : CaseRun) : Prop :=
  r.image + (r.last - r.first) < s.first ∨ s.last < r.image ∨
    (r.step = 2 ∨ r.first = r.last) ∧ s.step = 2 ∧ (r.image + s.first) % 2 = 1

instance (r s : CaseRun) : Decidable (r.IsApart s) :=
  inferInstanceAs (Decidable (_ ∨ _ ∨ _))

theorem CaseRun.IsApart.not_covers {r s : CaseRun} (h : r.IsApart s) {n : Nat}
    (covered : r.covers n = true) : s.covers (r.image + (n - r.first)) = false := by
  obtain ⟨low, high, member⟩ := covers_iff.mp covered
  rw [Bool.eq_false_iff, Ne, covers_iff]
  rintro ⟨least, most, place⟩
  rcases h with below | above | ⟨even | single, step, odd⟩
  · omega
  · omega
  · rw [even] at member
    rw [step] at place
    omega
  · rw [step] at place
    omega

theorem lowerRuns_apart : ∀ r ∈ lowerRuns, ∀ s ∈ lowerRuns, r.IsApart s := by decide +kernel

/-- A number is moved by a run that it is a member of, or is a member of none and kept. -/
theorem mapCase_moved_or_kept (n : Nat) :
    (∃ r ∈ lowerRuns, r.covers n = true ∧ mapCase lowerRuns n = r.image + (n - r.first)) ∨
    (∀ s ∈ lowerRuns, s.covers n = false) ∧ mapCase lowerRuns n = n := by
  unfold mapCase
  split
  · next r found =>
      have covered := List.find?_some found
      exact .inl ⟨r, List.mem_of_find?_eq_some found, covered, rfl⟩
  · next none => exact .inr ⟨by simpa using none, rfl⟩

/-- A letter in lower case is no member of a run. -/
theorem not_covers_mapCase (n : Nat) : ∀ s ∈ lowerRuns, s.covers (mapCase lowerRuns n) = false := by
  intro s hs
  rcases mapCase_moved_or_kept n with ⟨r, hr, covered, moved⟩ | ⟨uncovered, kept⟩
  · rw [moved]
    exact (lowerRuns_apart r hr s hs).not_covers covered
  · rw [kept]
    exact uncovered s hs

theorem mapCase_of_not_covers {n : Nat} (h : ∀ s ∈ lowerRuns, s.covers n = false) :
    mapCase lowerRuns n = n := by
  rcases mapCase_moved_or_kept n with ⟨r, hr, covered, -⟩ | ⟨-, kept⟩
  · exact absurd covered (by simp [h r hr])
  · exact kept

/-- Two letters apart, lower case is what the runs say. -/
theorem lowerChar_of_ne (sigma : c ≠ 'Σ') (dotted : c ≠ 'İ') :
    lowerChar before c after = [Char.ofNat (mapCase lowerRuns c.toNat)] := by
  unfold lowerChar
  split
  · next small =>
      have each : ∀ n < 128, (Char.ofNat n).toLower = Char.ofNat (mapCase lowerRuns n) := by
        decide +kernel
      have same := each c.toNat small
      rw [Char.ofNat_toNat] at same
      rw [same]
  · rw [if_neg (by simpa using sigma), if_neg (by simpa using dotted)]

/-- The character is its own lower case, wherever it stands. -/
def IsLower (c : Char) : Prop := ∀ before after, lowerChar before c after = [c]

theorem isLower_of_not_covers (dotted : c ≠ 'İ') (h : ∀ s ∈ lowerRuns, s.covers c.toNat = false) :
    IsLower c := by
  have sigma : c ≠ 'Σ' := by
    rintro rfl
    exact absurd (h ⟨931, 939, 1, 963⟩ (by decide +kernel)) (by decide)
  intro before after
  rw [lowerChar_of_ne sigma dotted, mapCase_of_not_covers h, Char.ofNat_toNat]

theorem mapCase_ne_dotted {n : Nat} (h : n ≠ 304) : mapCase lowerRuns n ≠ 304 := by
  have images : ∀ r ∈ lowerRuns, r.image + (r.last - r.first) < 304 ∨ 304 < r.image ∨
      r.step = 2 ∧ r.image % 2 = 1 := by decide +kernel
  rcases mapCase_moved_or_kept n with ⟨r, hr, covered, moved⟩ | ⟨-, kept⟩
  · obtain ⟨low, high, member⟩ := CaseRun.covers_iff.mp covered
    rw [moved]
    rcases images r hr with below | above | ⟨step, odd⟩
    · omega
    · omega
    · rw [step] at member
      omega
  · rwa [kept]

theorem toNat_mapCase (c : Char) :
    (Char.ofNat (mapCase lowerRuns c.toNat)).toNat = mapCase lowerRuns c.toNat := by
  have images : ∀ r ∈ lowerRuns, r.image + (r.last - r.first) < 0xd800 ∨
      0xdfff < r.image ∧ r.image + (r.last - r.first) < 0x110000 := by decide +kernel
  have valid : (mapCase lowerRuns c.toNat).isValidChar := by
    rcases mapCase_moved_or_kept c.toNat with ⟨r, hr, covered, moved⟩ | ⟨-, kept⟩
    · obtain ⟨low, high, -⟩ := CaseRun.covers_iff.mp covered
      rw [moved]
      rcases images r hr with below | above
      · exact .inl (by omega)
      · exact .inr (by omega)
    · rw [kept]
      exact c.valid
  rw [Char.toNat_ofNat, if_pos valid]

theorem lowerChar_sigma : lowerChar before 'Σ' after =
    [if meetsCased before && !meetsCased after then 'ς' else 'σ'] := rfl

theorem lowerChar_dotted : lowerChar before 'İ' after = ['i', '\u0307'] := rfl

/-- What the two letters apart become, and what any other letter becomes. -/
theorem mem_lowerChar (h : d ∈ lowerChar before c after) :
    (d = 'ς' ∨ d = 'σ' ∨ d = 'i' ∨ d = '\u0307') ∨
      c ≠ 'İ' ∧ d.toNat = mapCase lowerRuns c.toNat := by
  by_cases sigma : c = 'Σ'
  · rw [sigma, lowerChar_sigma, List.mem_singleton] at h
    rw [h]
    split
    · exact .inl (.inl rfl)
    · exact .inl (.inr (.inl rfl))
  by_cases dotted : c = 'İ'
  · rw [dotted, lowerChar_dotted] at h
    have parts : d = 'i' ∨ d = '\u0307' := by simpa using h
    exact .inl (.inr (.inr parts))
  · rw [lowerChar_of_ne sigma dotted, List.mem_singleton] at h
    exact .inr ⟨dotted, by rw [h, toNat_mapCase]⟩

/-- What a letter becomes in lower case stays as it is. -/
theorem isLower_of_mem_lowerChar (h : d ∈ lowerChar before c after) : IsLower d := by
  rcases mem_lowerChar h with own | ⟨dotted, code⟩
  · rcases own with rfl | rfl | rfl | rfl <;>
      exact isLower_of_not_covers (by decide) (by decide +kernel)
  · refine isLower_of_not_covers (fun same => ?_) (code ▸ not_covers_mapCase c.toNat)
    refine mapCase_ne_dotted (fun source => dotted (Char.toNat_inj.mp source)) ?_
    rw [← code, same]
    rfl

theorem mem_lowerFrom (h : d ∈ lowerFrom before s) :
    ∃ c ∈ s, ∃ front back, d ∈ lowerChar front c back := by
  induction s generalizing before with
  | nil => cases h
  | cons c s ih =>
      rcases List.mem_append.mp h with here | later
      · exact ⟨c, List.mem_cons_self, before, s, here⟩
      · obtain ⟨k, hk, found⟩ := ih later
        exact ⟨k, List.mem_cons_of_mem _ hk, found⟩

theorem isLower_of_mem_lower (h : d ∈ lower s) : IsLower d := by
  obtain ⟨c, -, front, back, found⟩ := mem_lowerFrom h
  exact isLower_of_mem_lowerChar found

theorem lower_eq_self (h : ∀ c ∈ s, IsLower c) : lower s = s := by
  have scan : ∀ before, lowerFrom before s = s := by
    induction s with
    | nil => exact fun _ => rfl
    | cons c s ih =>
        intro before
        obtain ⟨first, later⟩ := List.forall_mem_cons.mp h
        rw [lowerFrom, first, ih later]
        rfl
  exact scan []

theorem lower_lower (s : List Char) : lower (lower s) = lower s :=
  lower_eq_self fun _ => isLower_of_mem_lower

/-- The character is the lower case of others, or a part of it. -/
def isSmall (c : Char) : Bool :=
  c == 'ς' || c == '\u0307' ||
    lowerRuns.any fun r => r.image ≤ c.toNat && c.toNat ≤ r.image + (r.last - r.first)

/-- A character that is no small letter is not made by lower case. -/
theorem eq_of_mem_lowerChar (other : isSmall d = false) (h : d ∈ lowerChar before c after) : c = d := by
  rcases mem_lowerChar h with own | ⟨-, code⟩
  · rcases own with rfl | rfl | rfl | rfl <;> exact absurd other (by decide +kernel)
  rcases mapCase_moved_or_kept c.toNat with ⟨r, hr, covered, moved⟩ | ⟨-, kept⟩
  · obtain ⟨low, high, -⟩ := CaseRun.covers_iff.mp covered
    -- the code of the character would be an image of the run
    simp only [isSmall, Bool.or_eq_false_iff, List.any_eq_false, Bool.and_eq_true,
      decide_eq_true_eq] at other
    exact (other.2 r hr (by omega)).elim
  · exact Char.toNat_inj.mp (kept.symm.trans code.symm)

theorem mem_of_mem_lower (other : isSmall d = false) (h : d ∈ lower s) : d ∈ s := by
  obtain ⟨c, hc, front, back, found⟩ := mem_lowerFrom h
  exact eq_of_mem_lowerChar other found ▸ hc

theorem isSmall_of_isBlank (h : isBlank c = true) : isSmall c = false := by
  obtain ⟨r, listed, low, high⟩ := mem_of_covers h
  have apart : ∀ r ∈ blankRanges, ∀ s ∈ lowerRuns,
      r.2 < s.image ∨ s.image + (s.last - s.first) < r.1 := by decide +kernel
  have sigma : c ≠ 'ς' := by
    rintro rfl
    exact absurd h (by decide)
  have dot : c ≠ '\u0307' := by
    rintro rfl
    exact absurd h (by decide)
  simp only [isSmall, Bool.or_eq_false_iff, List.any_eq_false, Bool.and_eq_true, decide_eq_true_eq,
    beq_eq_false_iff_ne]
  refine ⟨⟨sigma, dot⟩, fun s hs place => ?_⟩
  have := apart r listed s hs
  omega

end NoteMarkup.Text
