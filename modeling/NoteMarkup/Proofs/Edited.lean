import NoteMarkup.Text.Lines

/-! Edits of a text that leave some stretches alone. `Edited` relates a text to one in which stretches
have been swapped for others and every other character is kept. `Swap` says what a swapped stretch
looks like and which character stands before it, so what is known of all swaps can be used to show that
an edit spares a part of the text. -/

namespace NoteMarkup.Text

/-- The second text is the first, which follows `before`, with stretches that `Swap` allows swapped. -/
inductive Edited (Swap : Option Char → List Char → Prop) :
    (before : Option Char) → List Char → List Char → Prop
  | nil {before} : Edited Swap before [] []
  | keep {before s t} (c : Char) : Edited Swap (some c) s t → Edited Swap before (c :: s) (c :: t)
  | swap {before old s t} (new : List Char) : Swap before old →
      Edited Swap (old.getLast?.or before) s t → Edited Swap before (old ++ s) (new ++ t)

/-- Texts between pieces of markup, each with the piece that follows it, and the text at the end. -/
def woven (parts : List (List Char × List Char)) (last : List Char) : List Char :=
  parts.flatMap (fun p => p.1 ++ p.2) ++ last

/-- The pieces of markup of a woven text. -/
abbrev markup (parts : List (List Char × List Char)) : List (List Char) := parts.map Prod.snd

/-- A piece of markup: from an opening to a closing bracket. -/
def IsMarkup (m : List Char) : Prop := ∃ inner, m = '<' :: (inner ++ ['>'])

/-- No swapped stretch lies in a text. -/
def Clear (Swap : Option Char → List Char → Prop) (s : List Char) : Prop :=
  ∀ front old back, s = front ++ old ++ back → ¬ Swap front.getLast? old

variable {Swap : Option Char → List Char → Prop} {before : Option Char} {s t : List Char}

theorem getLast?_cons_or (c : Char) (s : List Char) (before : Option Char) :
    (c :: s).getLast?.or before = s.getLast?.or (some c) := by
  cases s with
  | nil => rfl
  | cons d s =>
      rw [List.getLast?_cons_cons, List.getLast?_eq_some_getLast (List.cons_ne_nil d s)]
      rfl

namespace Edited

theorem keepAll (cs : List Char) (h : Edited Swap (cs.getLast?.or before) s t) :
    Edited Swap before (cs ++ s) (cs ++ t) := by
  induction cs generalizing before with
  | nil => exact h
  | cons c cs ih =>
      rw [getLast?_cons_or] at h
      exact .keep c (ih h)

/-- An edit splits at a character that no swapped stretch holds. -/
theorem split_at {d : Char} {a b : List Char} (whole : ∀ before old, Swap before old → d ∉ old)
    (h : Edited Swap before (a ++ d :: b) t) :
    ∃ a' b', t = a' ++ d :: b' ∧ Edited Swap before a a' ∧ Edited Swap (some d) b b' := by
  generalize same : a ++ d :: b = s at h
  induction h generalizing a with
  | nil => simp at same
  | @keep before s t c h ih =>
      cases a with
      | nil =>
          cases same
          exact ⟨[], t, rfl, .nil, h⟩
      | cons e a =>
          obtain ⟨rfl, tails⟩ := List.cons.inj same
          obtain ⟨a', b', rfl, left, right⟩ := ih tails
          exact ⟨e :: a', b', rfl, .keep e left, right⟩
  | @swap before old s t new allowed h ih =>
      -- the stretch ends before the character, as it does not hold it
      have ends : ∃ m, a = old ++ m ∧ m ++ d :: b = s := by
        rcases List.append_eq_append_iff.mp same with ⟨m, hm, hs⟩ | ⟨m, ha, hs⟩
        · cases m with
          | nil => exact ⟨[], by simpa using hm.symm, by simpa using hs⟩
          | cons e m =>
              obtain ⟨rfl, -⟩ := List.cons.inj hs
              have held : d ∈ old := hm ▸ List.mem_append_right a List.mem_cons_self
              exact absurd held (whole before old allowed)
        · exact ⟨m, ha, hs.symm⟩
      obtain ⟨m, rfl, tails⟩ := ends
      obtain ⟨a', b', rfl, left, right⟩ := ih tails
      exact ⟨new ++ a', b', by simp, .swap new allowed left, right⟩

theorem eq_self (h : Edited Swap before s t)
    (clear : ∀ front old back, s = front ++ old ++ back → ¬ Swap (front.getLast?.or before) old) :
    t = s := by
  induction h with
  | nil => rfl
  | @keep before s t c h ih =>
      rw [ih ?_]
      rintro front old back rfl allowed
      refine clear (c :: front) old back rfl ?_
      rwa [getLast?_cons_or]
  | @swap before old s t new allowed h ih => exact (clear [] old s rfl allowed).elim

/-- An edit whose swaps hold no bracket and do not lie in the pieces of markup keeps these pieces. -/
theorem keeps_markup {parts : List (List Char × List Char)} {last : List Char}
    (h : Edited Swap before (woven parts last) t) (isMarkup : ∀ m ∈ markup parts, IsMarkup m)
    (whole : ∀ before old, Swap before old → '<' ∉ old ∧ '>' ∉ old)
    (clear : ∀ m ∈ markup parts, Clear Swap m) :
    ∃ parts' last', t = woven parts' last' ∧ markup parts' = markup parts := by
  have opening := fun before old allowed => (whole before old allowed).1
  have closing := fun before old allowed => (whole before old allowed).2
  induction parts generalizing before t with
  | nil => exact ⟨[], t, rfl, rfl⟩
  | cons p parts ih =>
      obtain ⟨gap, tag⟩ := p
      obtain ⟨⟨inner, rfl⟩, laterMarkup⟩ := List.forall_mem_cons.mp isMarkup
      obtain ⟨clearHere, laterClear⟩ := List.forall_mem_cons.mp clear
      have same : woven ((gap, '<' :: (inner ++ ['>'])) :: parts) last =
          gap ++ '<' :: (inner ++ '>' :: woven parts last) := by
        simp [woven]
      rw [same] at h
      obtain ⟨gap', rest, rfl, -, h⟩ := h.split_at opening
      obtain ⟨inner', t, rfl, inside, h⟩ := h.split_at closing
      have kept : inner' = inner := by
        refine inside.eq_self ?_
        rintro front old back rfl allowed
        refine clearHere ('<' :: front) old (back ++ ['>']) (by simp) ?_
        have start := getLast?_cons_or '<' front none
        rw [Option.or_none] at start
        rwa [start]
      obtain ⟨parts', last', rfl, tags⟩ := ih h laterMarkup laterClear
      refine ⟨(gap', '<' :: (inner ++ ['>'])) :: parts', last', ?_, ?_⟩
      · simp [woven, kept]
      · simp [tags]

end Edited

end NoteMarkup.Text
