import NoteMarkup.Callout
import NoteMarkup.Proofs.Lines
import NoteMarkup.Proofs.PatternMatches
import NoteMarkup.Proofs.ReferenceSyntax

/-! The source of a note line by line. The lines that open a callout are told by themselves, whatever
stands on other lines. A quoted break is put after each of them and nothing else is changed, so the
source can be read off the result. -/

namespace NoteMarkup.Callout

open Text

variable {l w t rest : List Char}

/-- A line opens a callout: it is `>`, spaces, `[!`, word characters and, later, a bracket. -/
def OpensLine (l : List Char) : Prop :=
  ∃ blanks word later, l = '>' :: (blanks ++ '[' :: '!' :: (word ++ later)) ∧
    (∀ c ∈ blanks, c = ' ') ∧ word ≠ [] ∧ (∀ c ∈ word, isWord c = true) ∧ ']' ∈ later

/-- Whether a line opens a callout. -/
def opensCallout (line : List Char) : Bool :=
  match line with
  | '>' :: r =>
    match r.dropWhile (· == ' ') with
    | '[' :: '!' :: c :: r => isWord c && r.contains ']'
    | _ => false
  | _ => false

/-- A line, followed by a quoted line break if it opens a callout. -/
def normalizeLine (line : List Char) : List Char :=
  if opensCallout line then line ++ ['\n', '>', ' '] else line

theorem opensCallout_eq_true_iff : opensCallout l = true ↔ OpensLine l := by
  constructor
  · intro h
    unfold opensCallout at h
    split at h
    · next r =>
        split at h
        · next c later opened =>
            rw [Bool.and_eq_true, List.contains_iff_mem] at h
            refine ⟨r.takeWhile (· == ' '), [c], later, ?_, ?_, List.cons_ne_nil _ _, ?_, h.2⟩
            · rw [List.singleton_append, ← opened, List.takeWhile_append_dropWhile]
            · intro c member
              simpa using List.mem_takeWhile_imp member
            · exact List.forall_mem_singleton.mpr h.1
        · cases h
    · cases h
  · rintro ⟨blanks, word, later, rfl, areBlank, some, areWord, bracket⟩
    obtain ⟨c, word, rfl⟩ := List.exists_cons_of_ne_nil some
    have blank : ∀ c ∈ blanks, (c == ' ') = true := fun c member => beq_iff_eq.mpr (areBlank c member)
    have stop : ∀ d, ('[' :: '!' :: (c :: word ++ later)).head? = .some d → (d == ' ') = false := by
      rintro _ ⟨⟩
      rfl
    rw [opensCallout, dropWhile_append_stop blank stop]
    simp [areWord c List.mem_cons_self, bracket]

/-- The rest of a text where a line ends. -/
def EndsLine (t : List Char) : Prop := ∀ c, t.head? = some c → c = '\n'

theorem endsLine_nil : EndsLine [] := nofun

theorem endsLine_break (t : List Char) : EndsLine ('\n' :: t) := by
  rintro _ ⟨⟩
  rfl

/-- A text is cut at the end of its first line in one way. -/
theorem line_unique (same : w ++ rest = l ++ t) (oneLine : '\n' ∉ l) (ends : EndsLine t)
    (oneLine' : '\n' ∉ w) (ends' : EndsLine rest) : w = l := by
  have first {l t : List Char} (oneLine : '\n' ∉ l) (ends : EndsLine t) :
      (l ++ t).takeWhile (· != '\n') = l := by
    refine takeWhile_append_stop (fun c member => ?_) fun c head => ?_
    · have other : c ≠ '\n' := fun same => oneLine (same ▸ member)
      simpa using other
    · simp [ends c head]
  rw [← first oneLine' ends', same, first oneLine ends]

theorem inLine_of_not_mem (h : '\n' ∉ w) : ∀ c ∈ w, inLine c = true := by
  intro c member
  have other : c ≠ '\n' := fun same => h (same ▸ member)
  simpa [inLine] using other

/-- What the pattern matches is a line that opens a callout, up to its end. -/
theorem opensLine_of_matches (h : openingLine.Matches true w rest) : OpensLine w ∧ EndsLine rest := by
  obtain ⟨_, _, rfl, ⟨rfl, -⟩, _, _, rfl, ⟨quote, rfl, isQuote⟩, blanks, _, rfl, areBlank, h⟩ := h
  obtain ⟨_, _, rfl, ⟨bracket, rfl, isBracket⟩, _, _, rfl, ⟨mark, rfl, isMark⟩, h⟩ := h
  obtain ⟨_, _, rfl, ⟨c, rfl, isFirst⟩, word, _, rfl, areWord, bar, _, rfl, -, text, _, rfl, -, h⟩ := h
  obtain ⟨_, _, rfl, ⟨close, rfl, isClose⟩, fold, _, rfl, -, tail, _, rfl, -, h⟩ := h
  obtain ⟨_, _, rfl, ⟨rfl, ends⟩, rfl⟩ := h
  rw [beq_iff_eq] at isQuote isBracket isMark isClose
  subst isQuote isBracket isMark isClose
  refine ⟨⟨blanks, c :: word, bar ++ (text ++ ']' :: (fold ++ tail)), by simp, ?_,
    List.cons_ne_nil _ _, List.forall_mem_cons.mpr ⟨isFirst, areWord⟩, by simp⟩, ends⟩
  exact fun d member => beq_iff_eq.mp (areBlank d member)

/-- The pattern can match every line that opens a callout. -/
theorem matches_of_opensLine (h : OpensLine l) (oneLine : '\n' ∉ l) (ends : EndsLine t) :
    openingLine.Matches true l t := by
  obtain ⟨blanks, word, later, rfl, areBlank, some, areWord, bracket⟩ := h
  obtain ⟨c, word, rfl⟩ := List.exists_cons_of_ne_nil some
  obtain ⟨front, back, rfl, -⟩ := List.eq_append_cons_of_mem bracket
  simp only [List.mem_cons, List.mem_append, not_or] at oneLine
  -- the bracket that is found is the first one after the word characters, all else being optional
  refine ⟨[], _, rfl, ⟨rfl, rfl⟩, ['>'], _, rfl, ⟨_, rfl, rfl⟩, blanks, _, rfl,
    fun c member => beq_iff_eq.mpr (areBlank c member), ['['], _, rfl, ⟨_, rfl, rfl⟩, ['!'], _, rfl,
    ⟨_, rfl, rfl⟩, [c], _, rfl, ⟨c, rfl, areWord c List.mem_cons_self⟩, word, _, rfl,
    fun c member => areWord c (List.mem_cons_of_mem _ member), [], _, rfl, .inl rfl, front, _, rfl,
    inLine_of_not_mem ?_, [']'], _, rfl, ⟨_, rfl, rfl⟩, [], _, rfl, .inl rfl, back, [], (List.append_nil _).symm,
    inLine_of_not_mem ?_, [], [], rfl, ⟨rfl, ends⟩, rfl⟩
  · exact oneLine.2.2.2.2.2.1
  · exact oneLine.2.2.2.2.2.2.2

/-- At the start of a line the pattern finds the whole line if it opens a callout, and nothing if not. -/
theorem length?_line (oneLine : '\n' ∉ l) (ends : EndsLine t) :
    openingLine.length? true (l ++ t) = if opensCallout l then some l.length else none := by
  have stays : openingLine.all Pattern.Part.staysInLine = true := by decide
  have found {n : Nat} (h : openingLine.length? true (l ++ t) = some n) :
      OpensLine l ∧ n = l.length := by
    obtain ⟨w, rest, same, rfl, matched⟩ := Pattern.matches_of_length? h
    obtain ⟨opens, ends'⟩ := opensLine_of_matches matched
    have line := line_unique same.symm oneLine ends (Pattern.oneLine_of_matches stays matched) ends'
    exact ⟨line ▸ opens, congrArg List.length line⟩
  split
  · next opens =>
      have can := matches_of_opensLine (opensCallout_eq_true_iff.mp opens) oneLine ends
      obtain ⟨n, h⟩ := Option.isSome_iff_exists.mp (Pattern.isSome_length? can)
      rw [h, (found h).2]
  · next plain =>
      rw [Option.eq_none_iff_forall_ne_some]
      exact fun n h => plain (opensCallout_eq_true_iff.mpr (found h).1)

/-- Inside a line the pattern finds nothing. -/
theorem length?_inside (s : List Char) : openingLine.length? false s = none := rfl

/-- The source with a break after the lines that open a callout, from a place on. -/
abbrev broken (fresh : Bool) (s : List Char) : List Char :=
  openingLine.replace (· ++ ['\n', '>', ' ']) fresh s

theorem broken_break (fresh : Bool) (t : List Char) : broken fresh ('\n' :: t) = '\n' :: broken true t := by
  have none : openingLine.length? fresh ('\n' :: t) = none := by
    cases fresh with
    | false => exact length?_inside _
    | true => exact length?_line List.not_mem_nil (endsLine_break t)
  exact Pattern.replace_of_none none

theorem broken_inside (oneLine : '\n' ∉ w) (t : List Char) :
    broken false (w ++ t) = w ++ broken false t := by
  induction w with
  | nil => rfl
  | cons c w ih =>
      obtain ⟨first, later⟩ := not_or.mp (mt List.mem_cons.mpr oneLine)
      have other : (c == '\n') = false := by simpa using Ne.symm first
      rw [List.cons_append, broken, Pattern.replace_of_none (length?_inside _), other]
      exact congrArg (c :: ·) (ih later)

/-- A line is replaced as it is by itself. -/
theorem broken_line (oneLine : '\n' ∉ l) (ends : EndsLine t) :
    broken true (l ++ t) = normalizeLine l ++ broken (freshAfter true l) t := by
  have found := length?_line oneLine ends
  rw [normalizeLine]
  cases l with
  | nil => rfl
  | cons c l =>
      have inside := freshAfter_of_not_mem (List.cons_ne_nil c l) oneLine true
      split
      · next opens =>
          rw [if_pos opens] at found
          exact Pattern.replace_of_match found (List.cons_ne_nil c l)
      · next plain =>
          obtain ⟨first, later⟩ := not_or.mp (mt List.mem_cons.mpr oneLine)
          have other : (c == '\n') = false := by simpa using Ne.symm first
          rw [if_neg plain] at found
          have kept : broken true (c :: (l ++ t)) = c :: broken (c == '\n') (l ++ t) :=
            Pattern.replace_of_none found
          rw [inside, List.cons_append, kept, other, broken_inside later]
          rfl

theorem broken_joinWith {ls : List (List Char)} (free : ∀ l ∈ ls, '\n' ∉ l) :
    broken true (joinWith ['\n'] ls) = joinWith ['\n'] (ls.map normalizeLine) := by
  have nothing (fresh : Bool) : broken fresh [] = [] := by rw [broken, Pattern.replace]
  induction ls with
  | nil => exact nothing true
  | cons l ls ih =>
      obtain ⟨first, later⟩ := List.forall_mem_cons.mp free
      by_cases last : ls = []
      · have line := broken_line first endsLine_nil
        rw [List.append_nil, nothing, List.append_nil] at line
        rw [last]
        exact line
      · rw [joinWith_cons last, broken_line first (endsLine_break _), broken_break, ih later,
          List.map_cons, joinWith_cons (by simpa using last)]

theorem normalize_eq (source : String) :
    normalize source =
      String.ofList (joinWith ['\n'] ((splitAtChar '\n' source.toList).map normalizeLine)) := by
  rw [← broken_joinWith fun l => free_of_mem_splitAtChar, joinWith_splitAtChar]
  rfl

theorem normalize_line (oneLine : '\n' ∉ l) :
    normalize (String.ofList l) = String.ofList (normalizeLine l) := by
  rw [normalize_eq, String.toList_ofList, splitAtChar_of_not_mem oneLine, List.map_singleton, joinWith]

/-- The lines that a line becomes. -/
def linesOf (l : List Char) : List (List Char) := l :: if opensCallout l then [['>', ' ']] else []

theorem splitAtChar_normalizeLine (oneLine : '\n' ∉ l) :
    splitAtChar '\n' (normalizeLine l) = linesOf l := by
  unfold normalizeLine linesOf
  split
  · rw [splitAtChar_append, splitAtChar_of_not_mem oneLine]
    rfl
  · exact splitAtChar_of_not_mem oneLine

theorem splitAtChar_lines {ls : List (List Char)} (some : ls ≠ []) (free : ∀ l ∈ ls, '\n' ∉ l) :
    splitAtChar '\n' (joinWith ['\n'] (ls.map normalizeLine)) = ls.flatMap linesOf := by
  induction ls with
  | nil => exact absurd rfl some
  | cons l ls ih =>
      obtain ⟨first, later⟩ := List.forall_mem_cons.mp free
      by_cases last : ls = []
      · rw [last, List.map_singleton, joinWith, splitAtChar_normalizeLine first, List.flatMap_singleton]
      · rw [List.map_cons, joinWith_cons (by simpa using last), splitAtChar_append,
          splitAtChar_normalizeLine first, ih last later, List.flatMap_cons]

theorem splitAtChar_normalize (source : String) :
    splitAtChar '\n' (normalize source).toList = (splitAtChar '\n' source.toList).flatMap linesOf := by
  rw [normalize_eq, String.toList_ofList]
  exact splitAtChar_lines (splitAtChar_ne_nil _ _) fun l => free_of_mem_splitAtChar

/-- Lines can be told from what they become: the first line that is left is one, and it says whether the
line after it was put there. -/
theorem flatMap_linesOf_injective : Function.Injective (List.flatMap linesOf) := by
  intro ls ms same
  induction ls generalizing ms with
  | nil =>
      cases ms with
      | nil => rfl
      | cons m ms => cases same
  | cons l ls ih =>
      cases ms with
      | nil => cases same
      | cons m ms =>
          rw [List.flatMap_cons, List.flatMap_cons] at same
          have first : l = m := (List.cons.inj same).1
          rw [first] at same ⊢
          rw [ih (List.append_cancel_left same)]

theorem sublist_joinWith (ls : List (List Char)) :
    (joinWith ['\n'] ls).Sublist (joinWith ['\n'] (ls.map normalizeLine)) := by
  have line (l : List Char) : l.Sublist (normalizeLine l) := by
    unfold normalizeLine
    split
    · exact List.sublist_append_left _ _
    · exact List.Sublist.refl _
  induction ls with
  | nil => exact List.Sublist.refl _
  | cons l ls ih =>
      by_cases last : ls = []
      · rw [last]
        exact line l
      · rw [List.map_cons, joinWith_cons last, joinWith_cons (by simpa using last)]
        exact (line l).append (ih.cons_cons _)

theorem normalize_append (a b : String) :
    normalize (a ++ "\n" ++ b) = normalize a ++ "\n" ++ normalize b := by
  have text : (a ++ "\n" ++ b).toList = a.toList ++ '\n' :: b.toList := by simp
  have lines (s : List Char) : (splitAtChar '\n' s).map normalizeLine ≠ [] := by
    simpa using splitAtChar_ne_nil '\n' s
  rw [normalize_eq, normalize_eq, normalize_eq, text, splitAtChar_append, List.map_append,
    joinWith_append (lines _) (lines _), ← String.toList_inj]
  simp

/-- The source with its breaks is its lines, each with a break after it if it opens a callout. So parts
between line feeds are treated by themselves, all characters stay in their order, and different sources
stay different. -/
theorem normalize_each_line :
    (∀ source, normalize source =
      String.ofList (joinWith ['\n'] ((splitAtChar '\n' source.toList).map normalizeLine))) ∧
    (∀ l, (OpensLine l → normalizeLine l = l ++ "\n> ".toList) ∧
      (¬ OpensLine l → normalizeLine l = l)) ∧
    (∀ a b, normalize (a ++ "\n" ++ b) = normalize a ++ "\n" ++ normalize b) ∧
    (∀ source : String, source.toList.Sublist (normalize source).toList) ∧
    Function.Injective normalize := by
  refine ⟨normalize_eq, fun l => ?_, normalize_append, fun source => ?_, fun a b same => ?_⟩
  · rw [← opensCallout_eq_true_iff, normalizeLine]
    exact ⟨fun opens => by rw [if_pos opens]; rfl, fun plain => by rw [if_neg plain]⟩
  · have kept := sublist_joinWith (splitAtChar '\n' source.toList)
    rwa [joinWith_splitAtChar, ← String.toList_ofList (l := joinWith _ (List.map _ _)),
      ← normalize_eq] at kept
  · have lines : splitAtChar '\n' a.toList = splitAtChar '\n' b.toList := by
      apply flatMap_linesOf_injective
      rw [← splitAtChar_normalize, ← splitAtChar_normalize, same]
    rw [← String.toList_inj, ← joinWith_splitAtChar '\n' a.toList, lines, joinWith_splitAtChar]

end NoteMarkup.Callout
