/-!
Highlights in a text: `==` around at least one character, on one line, the first of them other than
`=`. The second pair of marks is the nearest.
-/

namespace NoteMarkup.Highlight

/-- The characters up to the nearest `==` on the line, and what follows it. -/
def untilMarks? : List Char → Option (List Char × List Char)
  | [] => none
  | '=' :: '=' :: r => some ([], r)
  | c :: cs => if c == '\n' then none else (untilMarks? cs).map fun p => (c :: p.1, p.2)

/-- The content of a highlight that starts here, and the rest. -/
def split? : List Char → Option (List Char × List Char)
  | '=' :: '=' :: c :: r =>
    if c == '=' || c == '\n' then none else (untilMarks? r).map fun p => (c :: p.1, p.2)
  | _ => none

/-- A part of a text: a character outside highlights, or the content of a highlight. -/
inductive Piece where
  | gap (c : Char)
  | highlight (content : List Char)

/-- The marks stand inside the text. -/
theorem length_untilMarks? {s : List Char} {p : List Char × List Char}
    (h : untilMarks? s = some p) : p.2.length < s.length := by
  fun_induction untilMarks? s generalizing p with
  | case1 => cases h
  | case2 r => injection h with h; subst h; simp only [List.length_cons]; omega
  | case3 => cases h
  | case4 c cs _ _ ih =>
    obtain ⟨q, hq, rfl⟩ := Option.map_eq_some_iff.1 h
    have := ih hq
    simp only [List.length_cons]
    omega

/-- A highlight ends after its first character. -/
theorem length_split? {s : List Char} {p : List Char × List Char}
    (h : split? s = some p) : p.2.length < s.length := by
  unfold split? at h
  split at h
  · split at h
    · cases h
    · obtain ⟨q, hq, rfl⟩ := Option.map_eq_some_iff.1 h
      have := length_untilMarks? hq
      simp only [List.length_cons]
      omega
  · cases h

/-- The pieces of a text from left to right. -/
def pieces (s : List Char) : List Piece :=
  match s with
  | [] => []
  | c :: cs =>
    match _h : split? (c :: cs) with
    | some (content, rest) => .highlight content :: pieces rest
    | none => .gap c :: pieces cs
termination_by s.length
decreasing_by
  · exact length_split? ‹_›
  · simp

/-- The span around already escaped markup. -/
def markup (inner : String) : String := "<span class=\"text-highlight\">" ++ inner ++ "</span>"

end NoteMarkup.Highlight
