import NoteMarkup.Text.Blank
import NoteMarkup.Text.Digit
import NoteMarkup.Text.Lines
import NoteMarkup.Text.Word

/-!
Tags in a text.

```
tag ::= "#" segment ("/" segment)*
```

A segment is made of word characters and `-`. A tag stands at the start of the text or after a
blank. A value of digits and `/` alone is a number, not a tag.
-/

namespace NoteMarkup.TagText

open Text

/-- A character of a segment. -/
def isTagChar (c : Char) : Bool := isWord c || c == '-'

/-- The further segments of a value, and the rest. -/
def splitSegments (s : List Char) : List Char × List Char :=
  match s with
  | '/' :: r =>
    let segment := r.takeWhile isTagChar
    if segment.isEmpty then ([], s)
    else
      let (more, rest) := splitSegments (r.dropWhile isTagChar)
      ('/' :: segment ++ more, rest)
  | r => ([], r)
termination_by s.length
decreasing_by
  have := (List.dropWhile_suffix (l := r) isTagChar).length_le
  simp only [List.length_cons]
  omega

/-- The value of a tag, without the mark, and the rest. -/
def splitValue? (s : List Char) : Option (List Char × List Char) :=
  let segment := s.takeWhile isTagChar
  if segment.isEmpty then none
  else
    let (more, rest) := splitSegments (s.dropWhile isTagChar)
    some (segment ++ more, rest)

/-- The value of a tag that starts here, and the rest. -/
def split? : List Char → Option (List Char × List Char)
  | '#' :: r => splitValue? r
  | _ => none

/-- A value of digits and `/` alone, a line feed at its end apart. -/
def isNumeric (value : String) : Bool :=
  let p (c : Char) := c == '/' || isDigit c
  !(value.toList.takeWhile p).isEmpty && atTextEnd (value.toList.dropWhile p)

/-- A part of a text: a character outside tags, or the value of a tag. -/
inductive Piece where
  | gap (c : Char)
  | tag (value : List Char)

/-- The segments end no later than the text. -/
theorem length_splitSegments (s : List Char) : (splitSegments s).2.length ≤ s.length := by
  fun_induction splitSegments s with
  | case1 => simp
  | case2 r segment _ more rest heq ih =>
    have := (List.dropWhile_suffix (l := r) isTagChar).length_le
    simp only [heq] at ih
    simp only [List.length_cons]
    omega
  | case3 => simp

/-- A tag ends after its mark. -/
theorem length_split? {s : List Char} {p : List Char × List Char}
    (h : split? s = some p) : p.2.length < s.length := by
  unfold split? at h
  split at h
  · next r =>
    simp only [splitValue?] at h
    split at h
    · cases h
    · injection h with h
      subst h
      have h1 := length_splitSegments (r.dropWhile isTagChar)
      have h2 := (List.dropWhile_suffix (l := r) isTagChar).length_le
      simp only [List.length_cons]
      omega
  · cases h

/-- The pieces of a text from left to right; `start` tells whether a tag may start here. -/
def pieces (start : Bool) (s : List Char) : List Piece :=
  match s with
  | [] => []
  | c :: cs =>
    match _h : if start then split? (c :: cs) else none with
    | some (value, rest) => .tag value :: pieces false rest
    | none => .gap c :: pieces (isBlank c) cs
termination_by s.length
decreasing_by
  · split at _h
    · exact length_split? _h
    · cases _h
  · simp

end NoteMarkup.TagText
