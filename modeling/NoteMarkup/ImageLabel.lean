import NoteMarkup.Text.Blank
import NoteMarkup.Text.Digit
import NoteMarkup.Text.Lines

/-!
Labels of embedded images, which give an alternative text, a size, or both.

```
label ::= [alt] [["|"] blanks size]        size ::= digits ["x" [digits]]
```

The alternative text is the shortest one after which a size or the end of the label follows. A
label that is nothing but a size has no alternative text, and a size that is not given is `auto`.
-/

namespace NoteMarkup.ImageLabel

open Text

/-- How an embedded image is shown. -/
structure Display where
  alt : String
  width : String
  height : String
deriving Repr, DecidableEq, Inhabited

/-- The size that is not given. -/
def auto : String := "auto"

/-- A size at the end of a label: the digits of the width and of the height. -/
def size? (s : List Char) : Option (List Char × List Char) :=
  let s := if s.head? == some '|' then s.tail else s
  let s := s.dropWhile isBlank
  let width := s.takeWhile isDigit
  let rest := s.dropWhile isDigit
  if width.isEmpty then none
  else if atTextEnd rest then some (width, [])
  else match rest with
    | 'x' :: r =>
      if atTextEnd (r.dropWhile isDigit) then some (width, r.takeWhile isDigit) else none
    | _ => none

/-- Whether a label is nothing but digits around at most one `x`. -/
def isBareSize (s : List Char) : Bool :=
  match s.dropWhile isDigit with
  | 'x' :: r => atTextEnd (r.dropWhile isDigit)
  | r => atTextEnd r

/-- A label in parts: the alternative text in reverse, and the size. -/
abbrev Parts := List Char × Option (List Char × List Char)

/-- The shortest alternative text after `alt`, which stands in reverse. -/
def scan? (alt : List Char) (s : List Char) : Option Parts :=
  match size? s with
  | some wh => some (alt, some wh)
  | none =>
    if atTextEnd s then some (alt, none)
    else match s with
      | [] => none
      | c :: cs => if c == '\n' then none else scan? (c :: alt) cs

/-- The parts of a label. -/
def parts? (s : List Char) : Option Parts :=
  if isBareSize s then
    match size? s with
    | some wh => some ([], some wh)
    | none => if atTextEnd s then some ([], none) else none
  else scan? [] s

/-- A part as text, `auto` if it is empty. -/
def orAuto (s : List Char) : String := if s.isEmpty then auto else String.ofList s

/-- How a label asks an image to be shown. -/
def parse (label : String) : Display :=
  match parts? label.toList with
  | none => ⟨"", auto, auto⟩
  | some (alt, none) => ⟨String.ofList alt.reverse, auto, auto⟩
  | some (alt, some (w, h)) => ⟨String.ofList alt.reverse, orAuto w, orAuto h⟩

end NoteMarkup.ImageLabel
