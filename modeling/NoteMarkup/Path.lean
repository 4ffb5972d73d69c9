import NoteMarkup.Text.Lines

/-!
Paths of files. A path is relative, or absolute with one slash or two at its start; empty parts and
single points between slashes do not count. A step up, `..`, stays in a path until it is resolved.
-/

namespace NoteMarkup

/-- A path. -/
structure Path where
  /-- The slashes at the start: none, one or two. -/
  slashes : Nat
  parts : List String
deriving Repr, DecidableEq, Inhabited

namespace Path

/-- Whether the system can be asked for a path: it takes no zero characters in names. -/
def isNameable (p : Path) : Bool := p.parts.all fun part => !part.toList.contains '\x00'

/-- The path of the working directory. -/
def here : Path := ⟨0, []⟩

/-- The path that a text writes. -/
def ofString (text : String) : Path :=
  let s := text.toList
  let slashes := (s.takeWhile (· == '/')).length
  let parts := ((Text.splitAtChar '/' s).map String.ofList).filter fun p => p != "" && p != "."
  ⟨if slashes > 2 then 1 else slashes, parts⟩

/-- A path as a text. -/
def text (p : Path) : String :=
  if p.slashes == 0 && p.parts.isEmpty then "."
  else String.ofList (List.replicate p.slashes '/') ++ "/".intercalate p.parts

/-- The last part, or the empty text if there is none. -/
def name (p : Path) : String := (p.parts.getLast?).getD ""

/-- The end of the name from its last point on; a point at the start or the end does not count. -/
def extension (p : Path) : String :=
  let s := p.name.toList.reverse
  let ext := s.takeWhile (· != '.')
  let stem := s.dropWhile (· != '.')
  if ext.isEmpty || stem.length < 2 then "" else String.ofList ('.' :: ext.reverse)

/-- The path without its last part. -/
def parent (p : Path) : Path := { p with parts := p.parts.dropLast }

/-- The path of a file in a directory. -/
def child (p : Path) (name : String) : Path := { p with parts := p.parts ++ [name] }

/-- The path that `p` writes when it starts from the directory `d`. -/
def join (d p : Path) : Path := if p.slashes == 0 then ⟨d.slashes, d.parts ++ p.parts⟩ else p

/-- The parts after all steps up are taken. -/
def climb (parts : List String) : List String :=
  parts.foldl (fun acc part => if part == ".." then acc.dropLast else acc ++ [part]) []

/-- The absolute path that `p` leads to from the absolute path `d`. -/
def resolve (d p : Path) : Path := ⟨1, climb (d.join p).parts⟩

/-- The path below a directory, if the path is in it. -/
def below? (p d : Path) : Option Path :=
  if d.parts.isPrefixOf p.parts then some ⟨0, p.parts.drop d.parts.length⟩ else none

/-- The beginnings of a list of parts, the empty one first. -/
def fronts : List String → List (List String)
  | [] => [[]]
  | part :: parts => [] :: (fronts parts).map (part :: ·)

/-- A directory and those above it, from the inside out. -/
def enclosing (p : Path) : List Path :=
  (fronts p.parts).reverse.map fun parts => { p with parts := parts }

end Path

end NoteMarkup
