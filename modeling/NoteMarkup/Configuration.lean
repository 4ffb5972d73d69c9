import NoteMarkup.Json.Reader
import NoteMarkup.Options
import NoteMarkup.Task
import NoteMarkup.Toml.Table
import NoteMarkup.Yaml.Draft

/-!
Configuration files: where they are looked for, how each format is read, and the options that they
set. The extension of a file gives its format; a project file holds the options in a section.
-/

namespace NoteMarkup.Configuration

/-- The format of a file. -/
inductive Format where
  | toml
  | yaml
  | json
  | project
deriving Repr, DecidableEq, Inhabited

/-- The names of files that hold options alone, in the order in which they are looked for. -/
def fileNames : List String := [".ofmark.toml", ".ofmark.yaml", ".ofmark.yml", ".ofmark.json"]

/-- The name of a project file. -/
def projectFile : String := "pyproject.toml"

/-- The logger of configuration. -/
def logger : String := "ofmark.config"

/-- A text in lower case. -/
def lowered (s : String) : String := String.ofList (Text.lower s.toList)

/-- The format of the file at a path. -/
def Format.ofPath (p : Path) : Except ConfigProblem Format :=
  let extension := lowered p.extension
  if lowered p.name == projectFile then .ok .project
  else if extension == ".toml" then .ok .toml
  else if extension == ".yaml" || extension == ".yml" then .ok .yaml
  else if extension == ".json" then .ok .json
  else .error (.unsupported extension)

/-- The value that a loader finds in a text; `problem` is what malformed texts are reported as. -/
def loaded (p : Path) (problem : String → ConfigProblem) (r : Except LoadFault Value) :
    Except Error Value :=
  match r with
  | .ok v => .ok v
  | .error (.malformed cause) => .error (.config (problem cause) p.text)
  | .error (.scalar f) => .error (.fault (.scalar f))

/-- The entries of a map. -/
def entriesOf (p : Path) (problem : String → ConfigProblem) (v : Value) : Except Error Record :=
  match v with
  | .map r => .ok r
  | v => .error (.config (problem v.typeName) p.text)

/-- The section of a project file that holds options; a file may have none. -/
def sectionOf (p : Path) (v : Value) : Except Error Record :=
  let tools := match v with
    | .map r => (Record.get? r (.str "tool")).getD (.map [])
    | v => v
  match tools with
  | .map r =>
    match Record.get? r (.str projectSection) with
    | none => .ok []
    | some v => entriesOf p .sectionType v
  | v => .error (.fault (.lacking "sections" v.typeName))

/-- The entries of a file of a format from its text. -/
def Format.entries (f : Format) (p : Path) (text : List Char) : Except Error Record := do
  match f with
  | .toml => entriesOf p .sectionType (← loaded p .notToml (Toml.load text))
  | .project => sectionOf p (← loaded p .badProject (Toml.load text))
  | .json => entriesOf p .jsonType (← loaded p .notJson (Json.load (Text.normalizeLines text)))
  | .yaml =>
    match ← loaded p .notYaml (Yaml.load (Text.normalizeLines text)) with
    | .null => return []
    | v => entriesOf p .yamlType v

/-- The number of octets that are decoded at a time, if the text of a format is not decoded at
once. -/
def Format.chunk? : Format → Option Nat
  | .yaml => some 8192
  | _ => none

/-- The entries of a file of a format from its octets. -/
def Format.read (f : Format) (p : Path) (octets : List UInt8) : Except Error Record :=
  match Text.ofOctets octets with
  | .ok text => f.entries p text
  | .error e =>
    .error (.fault (.undecodable ((f.chunk?.map fun size => e.inChunks size).getD e)))

variable {m : Type → Type} [Monad m] [Host m]

/-- Whether there is a file at a path. -/
def isFile (p : Path) : Task m Bool :=
  if p.isNameable then Task.reach p (Host.isFile p) else pure false

/-- The entries of the file at a path. -/
def load (p : Path) : Task m Record := do
  if !(← isFile p) then throw (.config .missing p.text)
  match Format.ofPath p with
  | .error problem => throw (.config problem p.text)
  | .ok f =>
    match ← Task.onHost (Host.read p) with
    | .error cause => throw (.config (.unreadable cause) p.text)
    | .ok octets =>
      let r ← Task.ofExcept (f.read p octets)
      Task.log Log.debug logger ("Loaded " ++ toString r.length ++ " option(s) from " ++ p.text)
      return r

/-- Whether there is a project file with options at a path. One that is no project file is passed
over. -/
def hasOptions (p : Path) : Task m Bool := do
  if !(← Task.reach p (Host.isFile p)) then return false
  match Format.project.read p (← Task.reach p (Host.read p)) with
  | .ok r => return !r.isEmpty
  | .error (.config problem path) =>
    Task.deliver ⟨Log.debug, logger,
      "Skipping unreadable " ++ p.text ++ ": " ++ problem.headline path, problem.cause?⟩
    return false
  | .error e => throw e

/-- The first of some paths at which there is a file. -/
def firstFile? : List Path → Task m (Option Path)
  | [] => return none
  | p :: ps => do
    if ← Task.reach p (Host.isFile p) then return some p
    else firstFile? ps

/-- The first file with options in a directory. -/
def findIn? (d : Path) : Task m (Option Path) := do
  match ← firstFile? (fileNames.map d.child) with
  | some p => return some p
  | none =>
    let p := d.child projectFile
    return if ← hasOptions p then some p else none

/-- The first file with options in a list of directories. -/
def findAmong? : List Path → Task m (Option Path)
  | [] => return none
  | d :: ds => do
    match ← findIn? d with
    | some p => return some p
    | none => findAmong? ds

/-- The first file with options in a directory and those above it. -/
def discover? (start : Path) : Task m (Option Path) := do
  let start ← Task.nameable start
  findAmong? (← Task.reach start (Host.resolve start)).enclosing

/-- The options that entries set, on top of `base`. -/
def applied (base : Options) (r : Record) : Except Error Options :=
  match Options.ofRecord r base with
  | .ok o => .ok o
  | .error f => .error (.option f)

/-- The options of a file, if there is one, with overrides on top of them. -/
def options (path : Option Path) (overrides : Record) : Task m Options := do
  let base ← match path with
    | none => pure Options.defaults
    | some p => Task.ofExcept (applied Options.defaults (← load p))
  Task.ofExcept (applied base overrides)

end NoteMarkup.Configuration
