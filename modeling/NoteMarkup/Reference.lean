import NoteMarkup.Text.Blank
import NoteMarkup.Text.Lines

/-!
References to other notes.

```
reference ::= ["!"] "[[" [target] ["#"+ anchor] [["\"] "|" label] "]]"
```

A target and an anchor hold none of `[`, `]`, `|`, `#`, `\`; a label holds none of `[`, `]`, `#`. A
leading `!` embeds the note. Parts are trimmed, and a part that is blank is absent.
-/

namespace NoteMarkup

/-- A reference to another note, or to a place in the same note if the target is empty. -/
structure Reference where
  target : String
  anchor : Option String
  label : Option String
  embedded : Bool
deriving Repr, DecidableEq, Inhabited

namespace Reference

open Text

/-- A character of a target or an anchor. -/
def isNameChar (c : Char) : Bool :=
  c != '[' && c != ']' && c != '|' && c != '#' && c != '\\'

/-- A character of a label. -/
def isLabelChar (c : Char) : Bool := c != '[' && c != ']' && c != '#'

/-- The parts of a reference as written, each empty if it does not occur. -/
structure Source where
  embedded : Bool
  target : List Char
  anchor : List Char
  label : List Char

/-- The label part with its separator, and the rest. -/
def splitLabel (s : List Char) : List Char × List Char :=
  match s with
  | '|' :: r => ('|' :: r.takeWhile isLabelChar, r.dropWhile isLabelChar)
  | '\\' :: '|' :: r => ('\\' :: '|' :: r.takeWhile isLabelChar, r.dropWhile isLabelChar)
  | r => ([], r)

/-- The anchor part with its marks, and the rest. The part does not occur without a name. -/
def splitAnchor (s : List Char) : List Char × List Char :=
  let marks := s.takeWhile (· == '#')
  let r := s.dropWhile (· == '#')
  let name := r.takeWhile isNameChar
  if marks.isEmpty || name.isEmpty then ([], s) else (marks ++ name, r.dropWhile isNameChar)

/-- The parts between the brackets, and what follows the closing brackets. -/
def splitBody? (embedded : Bool) (s : List Char) : Option (Source × List Char) :=
  let target := s.takeWhile isNameChar
  let (anchor, r) := splitAnchor (s.dropWhile isNameChar)
  let (label, r) := splitLabel r
  match r with
  | ']' :: ']' :: rest => some (⟨embedded, target, anchor, label⟩, rest)
  | _ => none

/-- The reference that starts here, and what follows it. -/
def split? : List Char → Option (Source × List Char)
  | '!' :: '[' :: '[' :: r => splitBody? true r
  | '[' :: '[' :: r => splitBody? false r
  | _ => none

/-- A trimmed part, absent if it is blank. -/
def part? (s : List Char) : Option String :=
  let t := trim s
  if t.isEmpty then none else some (String.ofList t)

/-- A label without its separator. -/
def labelText : List Char → List Char
  | '|' :: r => r
  | '\\' :: '|' :: r => r
  | r => r

/-- The reference that the parts denote. -/
def ofSource (s : Source) : Reference where
  target := String.ofList (trim s.target)
  anchor := part? (s.anchor.dropWhile (· == '#'))
  label := part? (labelText s.label)
  embedded := s.embedded

/-- The reference that a whole text writes. -/
def parse? (text : String) : Option Reference :=
  match split? text.toList with
  | some (s, []) => some (ofSource s)
  | _ => none

/-- A part of a text: characters outside references, or a reference with its written form. -/
inductive Piece where
  | gap (text : List Char)
  | reference (r : Reference) (source : List Char)

/-- The label part ends no later than the text. -/
theorem length_splitLabel (s : List Char) : (splitLabel s).2.length ≤ s.length := by
  unfold splitLabel
  have h (r : List Char) : (r.dropWhile isLabelChar).length ≤ r.length :=
    (List.dropWhile_suffix _).length_le
  split
  · next r => have := h r; simp only [List.length_cons]; omega
  · next r => have := h r; simp only [List.length_cons]; omega
  · simp

/-- The anchor part ends no later than the text. -/
theorem length_splitAnchor (s : List Char) : (splitAnchor s).2.length ≤ s.length := by
  unfold splitAnchor
  simp only
  split
  · simp
  · exact Nat.le_trans (List.dropWhile_suffix _).length_le (List.dropWhile_suffix _).length_le

/-- A reference ends before the text does. -/
theorem length_splitBody? {b : Bool} {s : List Char} {p : Source × List Char}
    (h : splitBody? b s = some p) : p.2.length < s.length := by
  simp only [splitBody?] at h
  have h1 := length_splitLabel (splitAnchor (s.dropWhile isNameChar)).2
  have h2 := length_splitAnchor (s.dropWhile isNameChar)
  have h3 : (s.dropWhile isNameChar).length ≤ s.length := (List.dropWhile_suffix _).length_le
  split at h
  · next heq =>
    rw [heq] at h1
    injection h with h
    subst h
    simp at h1 ⊢
    omega
  · cases h

/-- A reference ends after its first character. -/
theorem length_split? {s : List Char} {p : Source × List Char}
    (h : split? s = some p) : p.2.length < s.length := by
  unfold split? at h
  split at h
  · have := length_splitBody? h; simp only [List.length_cons]; omega
  · have := length_splitBody? h; simp only [List.length_cons]; omega
  · cases h

/-- The pieces of a text from left to right, single characters outside references. -/
def pieces (s : List Char) : List Piece :=
  match s with
  | [] => []
  | c :: cs =>
    match _h : split? (c :: cs) with
    | some (src, rest) =>
      .reference (ofSource src) ((c :: cs).take ((c :: cs).length - rest.length)) :: pieces rest
    | none => .gap [c] :: pieces cs
termination_by s.length
decreasing_by
  · exact length_split? ‹_›
  · simp

/-- The text with every reference replaced by what `f` gives for it and its written form. -/
def replace (f : Reference → String → String) (text : String) : String :=
  String.join ((pieces text.toList).map fun
    | .gap cs => String.ofList cs
    | .reference r source => f r (String.ofList source))

end Reference

end NoteMarkup
