import NoteMarkup.Fault
import NoteMarkup.Options

/-!
Errors that the library reports. A message may end in the wording of the cause, which belongs to
another part or to the system; `headline` is the message without it.
-/

namespace NoteMarkup

/-- What is wrong with a configuration file. -/
inductive ConfigProblem where
  | missing
  | unreadable (cause : String)
  | notToml (cause : String)
  /-- A project file that is not TOML. -/
  | badProject (cause : String)
  /-- A project file whose section is not a table. -/
  | sectionType (found : String)
  | notJson (cause : String)
  | jsonType (found : String)
  | notYaml (cause : String)
  | yamlType (found : String)
  | unsupported (extension : String)
deriving Repr, DecidableEq, Inhabited

/-- An error of the library. -/
inductive Error where
  | option (f : OptionFault)
  /-- A part was given something else than options. -/
  | optionsType (component received : String)
  | config (problem : ConfigProblem) (path : String)
  | cannotRead (path cause : String)
  | cannotWrite (path cause : String)
  | noAsset (name : String)
  /-- The source of a note is not a text. -/
  | sourceType (found : String)
  | stageFailed (stage : String) (cause : Fault)
  /-- A stage gave something else than a document. -/
  | stageResult (stage : String) (found : Option Kind)
  | renderFailed (cause : Fault)
  /-- A failure that no part of the library reports under a name of its own. -/
  | fault (f : Fault)
deriving Inhabited

/-- The section of a project file that holds options. -/
def projectSection : String := "ofmark"

namespace ConfigProblem

/-- The message without the wording of the cause. -/
def headline (p : ConfigProblem) (path : String) : String :=
  match p with
  | .missing => "Configuration file does not exist: " ++ path
  | .unreadable _ => "Error reading config file " ++ path ++ ": "
  | .notToml _ => "Invalid TOML in config file " ++ path ++ ": "
  | .badProject _ => "Invalid TOML in " ++ path ++ ": "
  | .sectionType t =>
    "[tool." ++ projectSection ++ "] section in " ++ path ++ " must be a table, got " ++ t
  | .notJson _ => "Invalid JSON in config file " ++ path ++ ": "
  | .jsonType t => "JSON config file must contain an object, got " ++ t
  | .notYaml _ => "Invalid YAML in config file " ++ path ++ ": "
  | .yamlType t => "YAML config file must contain a mapping, got " ++ t
  | .unsupported e => "Unsupported config file format: " ++ e ++ ". Use .json, .toml, or .yaml"

/-- The wording of the cause. -/
def cause? : ConfigProblem → Option String
  | .unreadable c | .notToml c | .badProject c | .notJson c | .notYaml c => some c
  | _ => none

end ConfigProblem

namespace Error

/-- The message without the wording of the cause. -/
def headline : Error → String
  | .option f => f.message
  | .optionsType c r =>
    c ++ " expected options of type 'ObsidianOptions' but received '" ++ r ++ "'."
  | .config p path => p.headline path
  | .cannotRead path _ => "Cannot read " ++ path ++ ": "
  | .cannotWrite path _ => "Cannot write " ++ path ++ ": "
  | .noAsset name => "Bundled asset not found: " ++ name
  | .sourceType t => "Note text must be a string, got " ++ t
  | .stageFailed s _ => "Stage '" ++ s ++ "' failed: "
  | .stageResult s found =>
    "Stage '" ++ s ++ "' must return Document, got " ++ (found.map Kind.name).getD "NoneType"
  | .renderFailed _ => "Failed to render document: "
  | .fault f => f.message

/-- The wording of the cause. -/
def cause? : Error → Option String
  | .config p _ => p.cause?
  | .cannotRead _ c | .cannotWrite _ c => some c
  | .stageFailed _ f | .renderFailed f => some f.message
  | _ => none

/-- The message. -/
def message (e : Error) : String := e.headline ++ e.cause?.getD ""

/-- How the command line ends with an error: 2 for options and configuration, 3 for files, 1 for
all else. -/
def exitCode : Error → Nat
  | .option _ | .optionsType _ _ | .config _ _ => 2
  | .cannotRead _ _ | .cannotWrite _ _ | .noAsset _ => 3
  | _ => 1

end Error

end NoteMarkup
