import NoteMarkup.Fault
import NoteMarkup.Log
import NoteMarkup.Text.Blank
import NoteMarkup.Text.Lines

/-!
Front matter: data about a note, before its text, between two lines of three hyphens. The lines are
taken off whatever the data turn out to be; data that cannot be loaded, or that are no map, are
reported and ignored.
-/

namespace NoteMarkup.FrontMatter

open Log

/-- The parts of a note with front matter, which together are the whole note. -/
structure Parts where
  opening : List Char
  source : List Char
  closing : List Char
  body : List Char
deriving Repr, DecidableEq

/-- The line of hyphens. -/
def fence : List Char := ['-', '-', '-']

/-- Whether a line opens front matter. -/
def opens (line : List Char) : Bool :=
  line == fence ++ ['\n'] || line == fence ++ ['\r', '\n']

/-- Whether a line closes front matter. -/
def closes (line : List Char) : Bool := Text.trim line == fence

/-- The parts of a note whose first line opens front matter that a later line closes. -/
def split? (s : List Char) : Option Parts :=
  match Text.lines s with
  | [] => none
  | first :: rest =>
    if !opens first then none
    else
      match rest.dropWhile (!closes ·) with
      | [] => none
      | closing :: body =>
        some ⟨first, (rest.takeWhile (!closes ·)).flatten, closing, body.flatten⟩

/-- Loads data from their text. -/
abbrev Loader := List Char → Except LoadFault Value

/-- The logger of the reader. -/
def logger : String := "ofmark.parsers.markdown"

/-- The data that a loader finds in the text of front matter. -/
def data (load : Loader) (source : List Char) : Logged (Except Fault Record) := do
  match load source with
  | .error (.malformed cause) =>
    writeFailure warning logger "Ignoring malformed front matter: " cause
    return .ok []
  | .error (.scalar f) => return .error (.scalar f)
  | .ok (.map r) => return .ok r
  | .ok .null => return .ok []
  | .ok v =>
    write warning logger
      ("Ignoring front matter that is not a mapping (" ++ v.typeName ++ ")")
    return .ok []

/-- The text of a note without front matter, and the data of the front matter. -/
def extract (load : Loader) (s : List Char) : Logged (Except Fault (List Char × Record)) := do
  match split? s with
  | none => return .ok (s, [])
  | some p =>
    let r ← data load p.source
    return r.map fun data => (p.body, data)

end NoteMarkup.FrontMatter
