/-!
The tokens of a YAML text. The starts and ends of block collections, which the text shows by
indentation alone, are tokens as well.
-/

namespace NoteMarkup.Yaml

/-- A line that says how the document after it is to be read. -/
inductive Directive where
  | version (major minor : Nat)
  | tag (handle uri : String)
  | other (name : String)
deriving Repr, DecidableEq

/-- A token. A tag without a handle is complete. -/
inductive Token where
  | streamEnd
  | directive (d : Directive)
  | documentStart
  | documentEnd
  | blockSequenceStart
  | blockMappingStart
  | blockEnd
  | flowSequenceStart
  | flowSequenceEnd
  | flowMappingStart
  | flowMappingEnd
  | blockEntry
  | flowEntry
  | key
  | value
  | reference (name : String)
  | anchor (name : String)
  | tag (handle : Option String) (suffix : String)
  | scalar (text : String) (plain : Bool)
deriving Repr, DecidableEq, Inhabited

end NoteMarkup.Yaml
