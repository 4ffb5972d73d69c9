import NoteMarkup.Value

/-!
The parts of a TOML document: statements in order, each of them an entry or the header of the
table that the entries after it belong to.
-/

namespace NoteMarkup.Toml

/-- A key: the names on the way from a table to a value. -/
abbrev Key := List String

/-- A value as written. -/
inductive Expression where
  | scalar (v : Value)
  | array (items : List Expression)
  | inlineTable (entries : List (Key × Expression))
deriving Inhabited

/-- A statement. -/
inductive Statement where
  | entry (key : Key) (value : Expression)
  /-- The header of a table. -/
  | table (key : Key)
  /-- The header of the next table of an array of tables. -/
  | nextTable (key : Key)
deriving Inhabited

end NoteMarkup.Toml
