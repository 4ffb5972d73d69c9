import NoteMarkup.Context

/-! First occurrences. A context takes up a tag unless it has it already, so of a list of tags it takes
up the first occurrences of those that it has not seen. -/

namespace NoteMarkup

/-- The first occurrences of the texts that have not been seen before. -/
def fresh (seen : List String) : List String → List String
  | [] => []
  | t :: ts => if seen.contains t then fresh seen ts else t :: fresh (seen ++ [t]) ts

section Fresh

variable {seen seen' more xs ys : List String} {t : String}

theorem fresh_cons_of_mem (h : t ∈ seen) (ts : List String) : fresh seen (t :: ts) = fresh seen ts := by
  rw [fresh, if_pos (List.contains_iff_mem.mpr h)]

theorem fresh_cons_of_not_mem (h : t ∉ seen) (ts : List String) :
    fresh seen (t :: ts) = t :: fresh (seen ++ [t]) ts := by
  rw [fresh, if_neg (by simpa using h)]

theorem mem_fresh : t ∈ fresh seen xs ↔ t ∈ xs ∧ t ∉ seen := by
  induction xs generalizing seen with
  | nil => simp [fresh]
  | cons x xs ih =>
      by_cases known : x ∈ seen
      · rw [fresh_cons_of_mem known, ih]
        grind
      · rw [fresh_cons_of_not_mem known, List.mem_cons, ih]
        grind

theorem nodup_fresh (seen xs : List String) : (fresh seen xs).Nodup := by
  induction xs generalizing seen with
  | nil => exact List.nodup_nil
  | cons x xs ih =>
      by_cases known : x ∈ seen
      · rw [fresh_cons_of_mem known]
        exact ih seen
      · rw [fresh_cons_of_not_mem known]
        refine List.nodup_cons.mpr ⟨?_, ih _⟩
        simp [mem_fresh]

/-- Only what has been seen counts, not in which order. -/
theorem fresh_congr (same : ∀ t, t ∈ seen ↔ t ∈ seen') (xs : List String) :
    fresh seen xs = fresh seen' xs := by
  induction xs generalizing seen seen' with
  | nil => rfl
  | cons x xs ih =>
      by_cases known : x ∈ seen
      · rw [fresh_cons_of_mem known, fresh_cons_of_mem ((same x).mp known), ih same]
      · rw [fresh_cons_of_not_mem known, fresh_cons_of_not_mem (mt (same x).mpr known)]
        refine congrArg (x :: ·) (ih fun t => ?_)
        simp [same t]

theorem fresh_append (seen xs ys : List String) :
    fresh seen (xs ++ ys) = fresh seen xs ++ fresh (seen ++ xs) ys := by
  induction xs generalizing seen with
  | nil => simp [fresh]
  | cons x xs ih =>
      by_cases known : x ∈ seen
      · rw [List.cons_append, fresh_cons_of_mem known, fresh_cons_of_mem known, ih]
        refine congrArg (fresh seen xs ++ ·) (fresh_congr (fun t => ?_) ys)
        grind
      · rw [List.cons_append, fresh_cons_of_not_mem known, fresh_cons_of_not_mem known, ih]
        simp

/-- To have seen more takes first occurrences away and moves none. -/
theorem fresh_append_seen (seen more xs : List String) :
    fresh (seen ++ more) xs = (fresh seen xs).filter fun t => !more.contains t := by
  induction xs generalizing seen with
  | nil => rfl
  | cons x xs ih =>
      by_cases known : x ∈ seen
      · rw [fresh_cons_of_mem known, fresh_cons_of_mem (List.mem_append_left _ known), ih]
      · rw [fresh_cons_of_not_mem known]
        have later : fresh (seen ++ [x] ++ more) xs = _ := ih (seen ++ [x])
        by_cases among : x ∈ more
        · rw [fresh_cons_of_mem (List.mem_append_right _ among),
            List.filter_cons_of_neg (by simpa using among),
            ← later]
          exact fresh_congr (fun t => by grind) xs
        · rw [fresh_cons_of_not_mem (by simp [known, among]),
            List.filter_cons_of_pos (by simpa using among),
            ← later]
          exact congrArg (x :: ·) (fresh_congr (fun t => by grind) xs)

theorem fresh_eq_eraseDups (seen xs : List String) :
    fresh seen xs = (xs.filter fun t => !seen.contains t).eraseDups := by
  induction xs generalizing seen with
  | nil => rfl
  | cons x xs ih =>
      by_cases known : x ∈ seen
      · rw [fresh_cons_of_mem known, List.filter_cons_of_neg (by simpa using known), ih]
      · rw [fresh_cons_of_not_mem known, List.filter_cons_of_pos (by simpa using known),
          List.eraseDups_cons, List.filter_filter, ih]
        refine congrArg (fun ts => x :: ts.eraseDups) (List.filter_congr fun t _ => ?_)
        grind

theorem fresh_nil (xs : List String) : fresh [] xs = xs.eraseDups := by
  rw [fresh_eq_eraseDups, List.filter_eq_self.mpr (by simp)]

/-- Of texts among which the same ones occur, the same number is fresh. -/
theorem length_fresh_eq (same : ∀ t, t ∈ xs ↔ t ∈ ys) (seen : List String) :
    (fresh seen xs).length = (fresh seen ys).length := by
  refine ((List.perm_ext_iff_of_nodup (nodup_fresh _ _) (nodup_fresh _ _)).mpr fun t => ?_).length_eq
  rw [mem_fresh, mem_fresh, same t]

/-- If what is fresh in a list begins with what is fresh in another, the rest is what is still fresh
after the other. -/
theorem fresh_of_prefix (h : fresh seen xs <+: fresh seen ys) :
    fresh seen ys = fresh seen xs ++ fresh (seen ++ xs) ys := by
  obtain ⟨rest, split⟩ := h
  have distinct : (fresh seen xs ++ rest).Nodup := split ▸ nodup_fresh seen ys
  have others : ∀ t ∈ rest, t ∉ xs := by
    intro t later among
    have new : t ∉ seen := (mem_fresh.mp (split ▸ List.mem_append_right _ later)).2
    exact (List.nodup_append.mp distinct).2.2 t (mem_fresh.mpr ⟨among, new⟩) t later rfl
  have none : (fresh seen xs).filter (fun t => !xs.contains t) = [] :=
    List.filter_eq_nil_iff.mpr fun t ht => by simp [(mem_fresh.mp ht).1]
  rw [fresh_append_seen, ← split, List.filter_append, none, List.nil_append,
    List.filter_eq_self.mpr fun t ht => by simp [others t ht]]

/-- After a list whose fresh texts begin with those of another, nothing in the other is fresh. -/
theorem fresh_eq_nil_of_prefix (h : fresh seen xs <+: fresh seen ys) {zs : List String}
    (same : ∀ t, t ∈ xs ↔ t ∈ zs) : fresh (seen ++ ys) zs = [] := by
  refine List.eq_nil_iff_forall_not_mem.mpr fun t ht => ?_
  obtain ⟨among, new⟩ := mem_fresh.mp ht
  rw [List.mem_append, not_or] at new
  exact new.2 (mem_fresh.mp (h.subset (mem_fresh.mpr ⟨(same t).mpr among, new.1⟩))).1

/-- When two lists, each with an order of its own, can be read in either order. -/
theorem fresh_swap_iff {xs' ys' : List String} (hxs : ∀ t, t ∈ xs ↔ t ∈ xs')
    (hys : ∀ t, t ∈ ys ↔ t ∈ ys') (seen : List String) :
    fresh seen (ys ++ xs') = fresh seen (xs ++ ys') ↔
      (fresh seen xs <+: fresh seen ys ∧ fresh (seen ++ xs) ys = fresh (seen ++ xs) ys') ∨
      (fresh seen ys <+: fresh seen xs ∧ fresh (seen ++ ys) xs' = fresh (seen ++ ys) xs) := by
  have first (h : fresh seen xs <+: fresh seen ys) : fresh seen (ys ++ xs') = fresh seen (xs ++ ys') ↔
      fresh (seen ++ xs) ys = fresh (seen ++ xs) ys' := by
    rw [fresh_append, fresh_append, fresh_eq_nil_of_prefix h hxs, List.append_nil, fresh_of_prefix h,
      List.append_cancel_left_eq]
  have second (h : fresh seen ys <+: fresh seen xs) : fresh seen (ys ++ xs') = fresh seen (xs ++ ys') ↔
      fresh (seen ++ ys) xs' = fresh (seen ++ ys) xs := by
    rw [fresh_append, fresh_append, fresh_eq_nil_of_prefix h hys, List.append_nil, fresh_of_prefix h,
      List.append_cancel_left_eq]
  constructor
  · intro equal
    have begins : fresh seen xs <+: fresh seen (xs ++ ys') :=
      fresh_append seen xs ys' ▸ List.prefix_append _ _
    have begins' : fresh seen ys <+: fresh seen (xs ++ ys') :=
      equal ▸ fresh_append seen ys xs' ▸ List.prefix_append _ _
    rcases List.prefix_or_prefix_of_prefix begins begins' with h | h
    · exact .inl ⟨h, (first h).mp equal⟩
    · exact .inr ⟨h, (second h).mp equal⟩
  · rintro (⟨h, rest⟩ | ⟨h, rest⟩)
    · exact (first h).mpr rest
    · exact (second h).mpr rest

end Fresh

namespace Context

/-- Records tags, one after the other. -/
def addTags (c : Context) (slugs : List String) : Context := slugs.foldl addTag c

theorem addTags_eq (c : Context) (slugs : List String) :
    c.addTags slugs = { c with tags := c.tags ++ fresh c.tags slugs } := by
  induction slugs generalizing c with
  | nil => simp [addTags, fresh]
  | cons s slugs ih =>
      change (c.addTag s).addTags slugs = _
      rw [ih, addTag]
      by_cases known : s ∈ c.tags
      · rw [if_pos (List.contains_iff_mem.mpr known), fresh_cons_of_mem known]
      · rw [if_neg (by simpa using known), fresh_cons_of_not_mem known]
        simp

theorem addTags_addTags (c : Context) (xs ys : List String) :
    (c.addTags xs).addTags ys = c.addTags (xs ++ ys) := by
  rw [addTags, addTags, addTags, List.foldl_append]

end Context

end NoteMarkup
