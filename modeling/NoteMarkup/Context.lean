import NoteMarkup.Node.Basic
import NoteMarkup.Slug

/-!
What the stages learn about one note: its tags, whether it holds a diagram, and the blocks that
other notes can link to. A context belongs to one note and is read when its stages have run.
-/

namespace NoteMarkup

/-- The state of one note's processing. -/
structure Context where
  slug : String
  knownSlugs : Option (List String)
  tags : List String
  hasDiagram : Bool
  blocks : List (Value × Node)
deriving Inhabited

namespace Context

/-- The slug of a note that is given none. -/
def defaultSlug : String := "index"

/-- The context of a note that no stage has seen. -/
def new (slug : String) (knownSlugs : Option (List String)) : Context :=
  ⟨slug, knownSlugs, [], false, []⟩

/-- The relative path from the note to the root of the site. -/
def baseUrl (c : Context) : String := Slug.toRoot c.slug

/-- The address of the page that lists the notes with a tag. -/
def tagUrl (c : Context) (slug : String) : String := c.baseUrl ++ "/tags/" ++ slug

/-- Records a tag, unless it is recorded already. -/
def addTag (c : Context) (slug : String) : Context :=
  if c.tags.contains slug then c else { c with tags := c.tags ++ [slug] }

/-- Whether a slug is that of a known note. No note is known if none are listed. -/
def slugExists (c : Context) (slug : String) : Bool :=
  match c.knownSlugs with
  | none => false
  | some known => known.contains slug

/-- Records the block that an id names; a later block takes the place of an earlier one. -/
def setBlock (c : Context) (id : Value) (n : Node) : Context :=
  { c with blocks := Entries.insert c.blocks id n }

/-- Forgets the block that an id names. -/
def eraseBlock (c : Context) (id : Value) : Context :=
  { c with blocks := Entries.erase c.blocks id }

end Context

end NoteMarkup
