import NoteMarkup.Value

/-!
Tokens: what the rules of the grammar recognize in a note's text, before the tree is built. The
kinds of tokens are open, so that a reader of tokens has to say what it does with one it does not
know.
-/

namespace NoteMarkup.Markdown

/-- A token. Absent source text counts as empty. -/
structure Token where
  kind : String
  raw : String := ""
  attrs : Option Value := none
  tight : Option Bool := none
  children : List Token := []
deriving Inhabited

namespace Token

/-- A token with source text alone. -/
def ofRaw (kind : String) (raw : List Char) : Token where
  kind := kind
  raw := String.ofList raw

/-- A token of plain text. -/
def ofText (raw : List Char) : Token := ofRaw "text" raw

/-- A token with children alone. -/
def ofChildren (kind : String) (children : List Token) : Token where
  kind := kind
  children := children

/-- Whether the token is part of a run of text. -/
def isText (t : Token) : Bool := t.kind == "text" || t.kind == "softbreak"

/-- The text that a token adds to a run: a soft break is a line feed. -/
def runText (t : Token) : String := if t.kind == "softbreak" then "\n" else t.raw

end Token

end NoteMarkup.Markdown
