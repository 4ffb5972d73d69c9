import NoteMarkup.Fault
import NoteMarkup.FileTree

/-!
What a command needs of the system that it runs on: files, the standard streams and the time. The
commands are written for any host; `Surroundings` is a host whose state is a value.
-/

namespace NoteMarkup

/-- A system on which commands run. Its failures have a wording of their own. -/
class Host (m : Type → Type) where
  /-- The absolute path to which a path leads from the working directory. -/
  resolve : Path → m (Except String Path)
  isFile : Path → m (Except String Bool)
  read : Path → m (Except String (List UInt8))
  /-- Replaces the content of a file. -/
  write : Path → String → m (Except String Unit)
  /-- Adds to the end of a file, which is made if it is not there. -/
  append : Path → String → m (Except String Unit)
  /-- The rest of the input. -/
  input : m (Except Fault String)
  print : String → m Unit
  printError : String → m Unit
  /-- The time as log records show it. -/
  time : m String
  /-- How the wording of a failure is shown. -/
  wording : String → m String

/-- A tree of files, a working directory in it, and what has been read and printed. -/
structure Surroundings where
  files : FileTree
  directory : List String
  input : String
  output : String
  errors : String
  time : String
  wording : String → String

namespace Surroundings

/-- Changes files. -/
def change (p : Path) (content : List UInt8 → List UInt8) :
    StateM Surroundings (Except String Unit) := fun s =>
  match s.files.write s.directory p content with
  | .ok files => (.ok (), { s with files := files })
  | .error obstacle => (.error obstacle.wording, s)

/-- Surroundings are a host; nothing is left of the input that has been read. -/
instance : Host (StateM Surroundings) where
  resolve p := do return .ok (Path.resolve ⟨1, (← get).directory⟩ p)
  isFile p := do return ((← get).files.isFile (← get).directory p).mapError (·.wording)
  read p := do return ((← get).files.read (← get).directory p).mapError (·.wording)
  write p text := change p fun _ => text.toUTF8.toList
  append p text := change p fun octets => octets ++ text.toUTF8.toList
  input s := (.ok s.input, { s with input := "" })
  print text := modify fun s => { s with output := s.output ++ text }
  printError text := modify fun s => { s with errors := s.errors ++ text }
  time := do return (← get).time
  wording cause := do return (← get).wording cause

end Surroundings

end NoteMarkup
