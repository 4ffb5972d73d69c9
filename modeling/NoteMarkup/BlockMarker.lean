import NoteMarkup.Text.Blank
import NoteMarkup.Text.Lines

/-!
Block markers. A text that ends in `^id`, at its start or after a blank, names the block that it
ends; blanks may follow the id, which is made of letters, digits, `-` and `_`.
-/

namespace NoteMarkup

/-- A text without the marker at its end, and the id that the marker gives. -/
structure BlockMarker where
  text : String
  id : String
deriving Repr, DecidableEq, Inhabited

namespace BlockMarker

open Text

/-- A character of an id. -/
def isIdChar (c : Char) : Bool := c.isAlphanum || c == '-' || c == '_'

/-- The id of a marker that is the whole text, blanks after it apart. -/
def id? : List Char → Option (List Char)
  | '^' :: r =>
    let id := r.takeWhile isIdChar
    if !id.isEmpty && (r.dropWhile isIdChar).all isBlank then some id else none
  | _ => none

/-- The first marker that stands after a blank, with the text before that blank in reverse. -/
def scan? (before : List Char) : List Char → Option (List Char × List Char)
  | [] => none
  | c :: cs =>
    match if isBlank c then id? cs else none with
    | some id => some (before, id)
    | none => scan? (c :: before) cs

/-- The marker at the end of a text. -/
def parse? (text : String) : Option BlockMarker :=
  match id? text.toList with
  | some id => some ⟨"", String.ofList id⟩
  | none =>
    match scan? [] text.toList with
    | some (before, id) => some ⟨String.ofList (trimRight before.reverse), String.ofList id⟩
    | none => none

end BlockMarker

end NoteMarkup
