import NoteMarkup.Path

/-!
Trees of files. A place is the list of the names on the way from the root; the root is a directory.
-/

namespace NoteMarkup

/-- What stands at a place. -/
inductive FileTree.Entry where
  | file (octets : List UInt8)
  | directory
deriving Repr, DecidableEq, Inhabited

/-- Files and directories by place. -/
structure FileTree where
  entries : List (List String × FileTree.Entry)
deriving Repr, DecidableEq, Inhabited

/-- Why a path does not lead to a file. -/
inductive FileTree.Obstacle where
  | missing
  | directory
  /-- A name with more octets than a name may have. -/
  | longName
deriving Repr, DecidableEq, Inhabited

namespace FileTree

/-- How the system words an obstacle. -/
def Obstacle.wording : Obstacle → String
  | .missing => "No such file or directory"
  | .directory => "Is a directory"
  | .longName => "File name too long"

/-- The tree with nothing in it. -/
def empty : FileTree := ⟨[]⟩

/-- What stands at a place. -/
def find? (t : FileTree) (place : List String) : Option Entry :=
  if place.isEmpty then some .directory else t.entries.lookup place

/-- Whether a place is a directory. -/
def isDirectory (t : FileTree) (place : List String) : Bool := t.find? place == some .directory

/-- Puts a file at a place. -/
def put (t : FileTree) (place : List String) (octets : List UInt8) : FileTree :=
  ⟨(place, .file octets) :: t.entries.filter (·.1 != place)⟩

/-- Makes a place and those above it directories. -/
def addDirectory (t : FileTree) (place : List String) : FileTree :=
  ⟨t.entries ++ ((Path.fronts place).map fun p => (p, Entry.directory))⟩

/-- Puts a file at a place, in directories that are made for it. -/
def addFile (t : FileTree) (place : List String) (octets : List UInt8) : FileTree :=
  (t.addDirectory place.dropLast).put place octets

/-- The number of octets that a name may have. -/
def nameLimit : Nat := 255

/-- The place to which parts lead from `place`. Every step starts in a directory. -/
def follow (t : FileTree) (place : List String) : List String → Except Obstacle (List String)
  | [] => .ok place
  | part :: parts =>
    if !t.isDirectory place then .error .missing
    else if nameLimit < part.utf8ByteSize then .error .longName
    else t.follow (if part == ".." then place.dropLast else place ++ [part]) parts

/-- The place to which a path leads from the directory `d`. -/
def locate (t : FileTree) (d : List String) (p : Path) : Except Obstacle (List String) :=
  t.follow (if p.slashes == 0 then d else []) p.parts

/-- The content of a file. -/
def read (t : FileTree) (d : List String) (p : Path) : Except Obstacle (List UInt8) := do
  match t.find? (← t.locate d p) with
  | some (.file octets) => return octets
  | some .directory => throw .directory
  | none => throw .missing

/-- Whether a path leads to a file. -/
def isFile (t : FileTree) (d : List String) (p : Path) : Except Obstacle Bool :=
  match t.read d p with
  | .ok _ => .ok true
  | .error .longName => .error .longName
  | .error _ => .ok false

/-- The tree with the content of a file replaced by `content`, which sees what is there. -/
def write (t : FileTree) (d : List String) (p : Path) (content : List UInt8 → List UInt8) :
    Except Obstacle FileTree := do
  let place ← t.locate d p
  match t.find? place with
  | some .directory => throw .directory
  | some (.file octets) => return t.put place (content octets)
  | none => return t.put place (content [])

end FileTree

end NoteMarkup
