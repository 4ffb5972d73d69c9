import NoteMarkup.Configuration
import NoteMarkup.Proofs.TaskRun

/-! The failures of configuration files that no error of the library reports: paths that the system does
not follow, octets that are no text, scalars without a value, a project file whose `tool` is no table, and
while files are looked for also a project file that cannot be read. All other failures have an error of
their own. -/

namespace NoteMarkup.Configuration

open LogSetup (Setup)

/-- The value that a text has in a format. -/
def Format.value (f : Format) (text : List Char) : Except LoadFault Value :=
  match f with
  | .toml | .project => Toml.load text
  | .json => Json.load (Text.normalizeLines text)
  | .yaml => Yaml.load (Text.normalizeLines text)

variable {p : Path} {problem : String → ConfigProblem} {f : Fault}

variable {σ : Type} [Host (StateM σ)] {setup : Setup} {s t : σ}

end NoteMarkup.Configuration
