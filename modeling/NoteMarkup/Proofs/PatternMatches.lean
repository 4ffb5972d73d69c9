import NoteMarkup.Text.Pattern

/-! What a pattern can match, whatever the order in which its choices are tried. A match that is found
is one of these, and a match is found wherever there is one. -/

namespace NoteMarkup.Text

@[simp] theorem freshAfter_nil (fresh : Bool) : freshAfter fresh [] = fresh := rfl

@[simp] theorem freshAfter_cons (fresh : Bool) (c : Char) (w : List Char) :
    freshAfter fresh (c :: w) = freshAfter (c == '\n') w := by
  unfold freshAfter
  rw [List.getLast?_cons]
  cases w.getLast? <;> rfl

theorem freshAfter_of_not_mem {w : List Char} (some : w ≠ []) (oneLine : '\n' ∉ w) (fresh : Bool) :
    freshAfter fresh w = false := by
  induction w generalizing fresh with
  | nil => exact absurd rfl some
  | cons c w ih =>
      obtain ⟨first, later⟩ := not_or.mp (mt List.mem_cons.mpr oneLine)
      have other : (c == '\n') = false := by simpa using Ne.symm first
      rw [freshAfter_cons, other]
      by_cases last : w = []
      · rw [last, freshAfter_nil]
      · exact ih last later false

namespace Pattern

variable {next : Bool → List Char → Option Nat} {fresh : Bool} {w s rest : List Char} {n : Nat}
  {p : Char → Bool} {part : Part} {pattern : Pattern}

/-- The part can match `w` at a place where `rest` comes after it. -/
def Part.Matches (fresh : Bool) (w rest : List Char) : Part → Prop
  | lineStart => w = [] ∧ fresh = true
  | lineEnd => w = [] ∧ ∀ c, rest.head? = some c → c = '\n'
  | one p => ∃ c, w = [c] ∧ p c = true
  | maybe p => w = [] ∨ ∃ c, w = [c] ∧ p c = true
  | many p => ∀ c ∈ w, p c = true
  | few p => ∀ c ∈ w, p c = true

/-- The pattern can match `w`: it can be cut into what the parts can match. -/
def Matches (fresh : Bool) (w rest : List Char) : Pattern → Prop
  | [] => w = []
  | part :: parts => ∃ u v, w = u ++ v ∧ part.Matches fresh u (v ++ rest) ∧
      Matches (freshAfter fresh u) v rest parts

/-- The first `w` of the characters are taken, and `next` matches after them. -/
structure Takes (next : Bool → List Char → Option Nat) (fresh : Bool) (s w : List Char) (n : Nat) :
    Prop where
  starts : w <+: s
  after : ∃ m, next (freshAfter fresh w) (s.drop w.length) = some m ∧ n = w.length + m

theorem Takes.nil (h : next fresh s = some n) : Takes next fresh s [] n :=
  ⟨List.nil_prefix, n, h, (Nat.zero_add n).symm⟩

theorem Takes.cons {c : Char} {cs : List Char} (h : Takes next (c == '\n') cs w n) :
    Takes next fresh (c :: cs) (c :: w) (n + 1) := by
  obtain ⟨starts, m, after, rfl⟩ := h
  refine ⟨List.cons_prefix_cons.mpr ⟨rfl, starts⟩, m, ?_, ?_⟩
  · rwa [freshAfter_cons, List.length_cons, List.drop_succ_cons]
  · rw [List.length_cons]
    omega

theorem takeOne_eq_some (h : takeOne p next s = some n) :
    ∃ c, p c = true ∧ Takes next fresh s [c] n := by
  cases s with
  | nil => cases h
  | cons c cs =>
      rw [takeOne] at h
      split at h
      · next inside =>
          obtain ⟨m, after, rfl⟩ := Option.map_eq_some_iff.mp h
          exact ⟨c, inside, .cons (.nil after)⟩
      · cases h

theorem takeMany_eq_some (h : takeMany p next fresh s = some n) :
    ∃ w, (∀ c ∈ w, p c = true) ∧ Takes next fresh s w n := by
  induction s generalizing fresh n with
  | nil => exact ⟨[], nofun, .nil h⟩
  | cons c cs ih =>
      rw [takeMany] at h
      split at h
      · next inside =>
          split at h
          · next m longer =>
              cases h
              obtain ⟨w, all, taken⟩ := ih longer
              exact ⟨c :: w, List.forall_mem_cons.mpr ⟨inside, all⟩, taken.cons⟩
          · exact ⟨[], nofun, .nil h⟩
      · exact ⟨[], nofun, .nil h⟩

theorem takeFew_eq_some (h : takeFew p next fresh s = some n) :
    ∃ w, (∀ c ∈ w, p c = true) ∧ Takes next fresh s w n := by
  induction s generalizing fresh n with
  | nil => exact ⟨[], nofun, .nil h⟩
  | cons c cs ih =>
      rw [takeFew] at h
      split at h
      · next here => exact ⟨[], nofun, .nil (here.trans h)⟩
      · split at h
        · next inside =>
            obtain ⟨m, longer, rfl⟩ := Option.map_eq_some_iff.mp h
            obtain ⟨w, all, taken⟩ := ih longer
            exact ⟨c :: w, List.forall_mem_cons.mpr ⟨inside, all⟩, taken.cons⟩
        · cases h

theorem isSome_takeMany (all : ∀ c ∈ w, p c = true)
    (after : (next (freshAfter fresh w) rest).isSome = true) :
    (takeMany p next fresh (w ++ rest)).isSome = true := by
  induction w generalizing fresh with
  | nil =>
      cases rest with
      | nil => exact after
      | cons c cs =>
          rw [List.nil_append, takeMany]
          split
          · split
            · rfl
            · exact after
          · exact after
  | cons c w ih =>
      obtain ⟨inside, later⟩ := List.forall_mem_cons.mp all
      rw [freshAfter_cons] at after
      obtain ⟨n, longer⟩ := Option.isSome_iff_exists.mp (ih later after)
      rw [List.cons_append, takeMany, if_pos inside, longer]
      rfl

theorem isSome_takeFew (all : ∀ c ∈ w, p c = true)
    (after : (next (freshAfter fresh w) rest).isSome = true) :
    (takeFew p next fresh (w ++ rest)).isSome = true := by
  induction w generalizing fresh with
  | nil =>
      cases rest with
      | nil => exact after
      | cons c cs =>
          obtain ⟨n, here⟩ := Option.isSome_iff_exists.mp after
          rw [List.nil_append, takeFew, show next fresh (c :: cs) = some n from here]
          rfl
  | cons c w ih =>
      obtain ⟨inside, later⟩ := List.forall_mem_cons.mp all
      rw [freshAfter_cons] at after
      rw [List.cons_append, takeFew]
      split
      · rfl
      · rw [if_pos inside, Option.isSome_map]
        exact ih later after

/-- What a part takes before `next` matches is something that it can match. -/
theorem Part.matches_of_run (h : part.run next fresh s = some n) :
    ∃ w rest m, s = w ++ rest ∧ part.Matches fresh w rest ∧
      next (freshAfter fresh w) rest = some m ∧ n = w.length + m := by
  have taken {w : List Char} (h : Takes next fresh s w n) : ∃ rest m, s = w ++ rest ∧
      next (freshAfter fresh w) rest = some m ∧ n = w.length + m := by
    obtain ⟨⟨rest, rfl⟩, m, after, length⟩ := h
    rw [List.drop_left] at after
    exact ⟨rest, m, rfl, after, length⟩
  cases part with
  | lineStart =>
      rw [Part.run] at h
      split at h
      · next starts => exact ⟨[], s, n, rfl, ⟨rfl, starts⟩, h, (Nat.zero_add n).symm⟩
      · cases h
  | lineEnd =>
      rw [Part.run] at h
      split at h
      · next ends =>
          refine ⟨[], s, n, rfl, ⟨rfl, ?_⟩, h, (Nat.zero_add n).symm⟩
          simpa [Option.all_eq_true] using ends
      · cases h
  | one p =>
      obtain ⟨c, inside, takes⟩ := takeOne_eq_some h
      obtain ⟨rest, m, same, after⟩ := taken takes
      exact ⟨[c], rest, m, same, ⟨c, rfl, inside⟩, after⟩
  | maybe p =>
      rw [Part.run] at h
      split at h
      · next found =>
          obtain ⟨c, inside, takes⟩ := takeOne_eq_some (found.trans h)
          obtain ⟨rest, m, same, after⟩ := taken takes
          exact ⟨[c], rest, m, same, .inr ⟨c, rfl, inside⟩, after⟩
      · exact ⟨[], s, n, rfl, .inl rfl, h, (Nat.zero_add n).symm⟩
  | many p =>
      obtain ⟨w, all, takes⟩ := takeMany_eq_some h
      obtain ⟨rest, m, same, after⟩ := taken takes
      exact ⟨w, rest, m, same, all, after⟩
  | few p =>
      obtain ⟨w, all, takes⟩ := takeFew_eq_some h
      obtain ⟨rest, m, same, after⟩ := taken takes
      exact ⟨w, rest, m, same, all, after⟩

/-- A part finds a match if it can match something after which `next` matches. -/
theorem Part.isSome_run (can : part.Matches fresh w rest)
    (after : (next (freshAfter fresh w) rest).isSome = true) :
    (part.run next fresh (w ++ rest)).isSome = true := by
  cases part with
  | lineStart =>
      obtain ⟨rfl, rfl⟩ := can
      exact after
  | lineEnd =>
      obtain ⟨rfl, ends⟩ := can
      have atEnd : rest.head?.all (· == '\n') = true := by simpa [Option.all_eq_true] using ends
      rwa [Part.run, List.nil_append, if_pos atEnd]
  | one p =>
      obtain ⟨c, rfl, inside⟩ := can
      rwa [Part.run, List.singleton_append, takeOne, if_pos inside, Option.isSome_map]
  | maybe p =>
      rw [Part.run]
      rcases can with rfl | ⟨c, rfl, inside⟩
      · split
        · rfl
        · exact after
      · obtain ⟨n, taken⟩ := Option.isSome_iff_exists.mp after
        rw [List.singleton_append, takeOne, if_pos inside, show next (c == '\n') rest = some n from taken]
        rfl
  | many p => exact isSome_takeMany can after
  | few p => exact isSome_takeFew can after

theorem matches_of_length? (h : pattern.length? fresh s = some n) :
    ∃ w rest, s = w ++ rest ∧ w.length = n ∧ pattern.Matches fresh w rest := by
  induction pattern generalizing fresh s n with
  | nil =>
      cases h
      exact ⟨[], s, rfl, rfl, rfl⟩
  | cons part parts ih =>
      obtain ⟨u, later, m, rfl, first, after, rfl⟩ := Part.matches_of_run h
      obtain ⟨v, rest, rfl, rfl, others⟩ := ih after
      exact ⟨u ++ v, rest, (List.append_assoc _ _ _).symm, List.length_append, u, v, rfl, first, others⟩

theorem isSome_length? (can : pattern.Matches fresh w rest) :
    (pattern.length? fresh (w ++ rest)).isSome = true := by
  induction pattern generalizing fresh w with
  | nil => rfl
  | cons part parts ih =>
      obtain ⟨u, v, rfl, first, others⟩ := can
      rw [List.append_assoc]
      exact Part.isSome_run first (ih others)

/-- The part takes no line feed. -/
def Part.staysInLine : Part → Bool
  | lineStart => true
  | lineEnd => true
  | one p => !p '\n'
  | maybe p => !p '\n'
  | many p => !p '\n'
  | few p => !p '\n'

theorem Part.oneLine_of_matches (stays : part.staysInLine = true) (h : part.Matches fresh w rest) :
    '\n' ∉ w := by
  have free {p : Char → Bool} {w : List Char} (stays : (!p '\n') = true)
      (all : ∀ c ∈ w, p c = true) : '\n' ∉ w := by
    intro member
    rw [all _ member] at stays
    cases stays
  cases part with
  | lineStart => exact h.1 ▸ List.not_mem_nil
  | lineEnd => exact h.1 ▸ List.not_mem_nil
  | one p =>
      obtain ⟨c, rfl, inside⟩ := h
      exact free stays (List.forall_mem_singleton.mpr inside)
  | maybe p =>
      rcases h with rfl | ⟨c, rfl, inside⟩
      · exact List.not_mem_nil
      · exact free stays (List.forall_mem_singleton.mpr inside)
  | many p => exact free stays h
  | few p => exact free stays h

/-- A pattern that takes no line feed matches within a line. -/
theorem oneLine_of_matches (stays : pattern.all Part.staysInLine = true)
    (h : pattern.Matches fresh w rest) : '\n' ∉ w := by
  induction pattern generalizing fresh w with
  | nil => exact (show w = [] from h) ▸ List.not_mem_nil
  | cons part parts ih =>
      obtain ⟨u, v, rfl, first, others⟩ := h
      rw [List.all_cons, Bool.and_eq_true] at stays
      have later := ih stays.2 others
      have now := Part.oneLine_of_matches stays.1 first
      exact fun member => (List.mem_append.mp member).elim now later

variable {f : List Char → List Char}

theorem replace_of_match (h : pattern.length? fresh (w ++ rest) = some w.length) (some : w ≠ []) :
    pattern.replace f fresh (w ++ rest) =
      f w ++ pattern.replace f (freshAfter fresh w) rest := by
  obtain ⟨c, w, rfl⟩ := List.exists_cons_of_ne_nil some
  rw [List.cons_append, List.length_cons] at h
  rw [List.cons_append, replace, h]
  dsimp only
  rw [List.take_left, List.drop_left]

theorem replace_of_none {c : Char} (h : pattern.length? fresh (c :: s) = none) :
    pattern.replace f fresh (c :: s) = c :: pattern.replace f (c == '\n') s := by
  rw [replace, h]

end Pattern

end NoteMarkup.Text
