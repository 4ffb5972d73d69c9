import NoteMarkup.Stage.Catalog

/-!
The registry of stages. It keeps one stage for each name, in the order in which the names were first
registered. The built-in stages and those of installed plugins are loaded at the first use; a
built-in stage does not take the place of one that is there already.
-/

namespace NoteMarkup

open Log

/-- What loading a plugin gives. -/
inductive PluginContent where
  /-- The plugin cannot be loaded. -/
  | unavailable (cause : String)
  /-- The plugin gives something that declares no stage. -/
  | other
  | stage (declaration : Declaration)

/-- An installed plugin. -/
structure Plugin where
  name : String
  content : PluginContent

/-- The registered stages, and whether the built-in ones are loaded. -/
structure Registry where
  stages : List Stage
  loaded : Bool

namespace Registry

/-- The logger of the registry. -/
def logger : String := "ofmark.transforms.registry"

/-- A registry at its start. -/
def empty : Registry := ⟨[], false⟩

/-- The stage with a name. -/
def find? (r : Registry) (name : String) : Option Stage := r.stages.find? fun s => s.name == name

/-- Puts a stage in the place of one with its name, else at the end. -/
def insertStage (stages : List Stage) (s : Stage) : List Stage :=
  match stages with
  | [] => [s]
  | t :: ts => if t.name == s.name then s :: ts else t :: insertStage ts s

/-- Registers a stage. -/
def add (r : Registry) (s : Stage) : Logged Registry := do
  if (r.find? s.name).isSome then
    write warning logger ("Stage '" ++ s.name ++ "' already registered, overwriting")
  write debug logger ("Registered stage: " ++ s.name)
  return { r with stages := insertStage r.stages s }

/-- Registers the stage of one plugin. The count tells whether there was one. -/
def addPlugin (r : Registry) (p : Plugin) : Logged (Registry × Except DeclarationFault Nat) := do
  match p.content with
  | .unavailable cause =>
    writeFailure warning logger ("Failed to load stage entry point '" ++ p.name ++ "': ") cause
    return (r, .ok 0)
  | .other =>
    write warning logger ("Entry point '" ++ p.name ++ "' did not return StageMetadata, skipping")
    return (r, .ok 0)
  | .stage d =>
    match d.toStage with
    | .error e => return (r, .error e)
    | .ok s =>
      let r ← r.add s
      write debug logger ("Discovered stage from entry point: " ++ p.name)
      return (r, .ok 1)

/-- Registers the stages of plugins up to the first that declares a faulty one. -/
def addPlugins (r : Registry) (count : Nat) :
    List Plugin → Logged (Registry × Except DeclarationFault Nat)
  | [] => return (r, .ok count)
  | p :: ps => do
    match ← r.addPlugin p with
    | (r, .error e) => return (r, .error e)
    | (r, .ok n) => addPlugins r (count + n) ps

/-- Registers the stages of the installed plugins and counts them. -/
def discover (r : Registry) (plugins : List Plugin) :
    Logged (Registry × Except DeclarationFault Nat) := do
  let (r, count) ← r.addPlugins 0 plugins
  match count with
  | .ok (n + 1) =>
    write info logger ("Discovered " ++ toString (n + 1) ++ " stage(s) from entry points")
  | _ => pure ()
  return (r, count)

/-- Adds the built-in stages whose names are free. -/
def addBuiltin (stages : List Stage) : List Stage :=
  Stage.builtin.foldl (fun acc s => if acc.any fun t => t.name == s.name then acc else acc ++ [s])
    stages

/-- Loads the built-in stages and the plugins, unless they are loaded. -/
def load (r : Registry) (plugins : List Plugin) :
    Logged (Registry × Except DeclarationFault Unit) := do
  if r.loaded then return (r, .ok ())
  let (r, count) ← discover { r with stages := addBuiltin r.stages } plugins
  match count with
  | .error e => return (r, .error e)
  | .ok _ => return ({ r with loaded := true }, .ok ())

/-- A registry that holds the built-in stages. -/
def builtin : Registry := ⟨Stage.builtin, true⟩

/-- Removes the stage with a name, if there is one. -/
def remove (r : Registry) (name : String) : Logged (Registry × Bool) := do
  if (r.find? name).isNone then return (r, false)
  write debug logger ("Unregistered stage: " ++ name)
  return ({ r with stages := r.stages.filter fun s => s.name != name }, true)

/-- Forgets every stage. -/
def clear : Logged Registry := do
  write debug logger "Cleared stage registry"
  return empty

/-- The registered names in alphabetical order. -/
def names (r : Registry) : List String := (r.stages.map (·.name)).mergeSort

/-- The stages that run under the options, by priority; ties keep the order of registration. -/
def enabledStages (r : Registry) (options : Options) : List Stage :=
  (r.stages.filter (·.isEnabled options)).mergeSort fun s t => s.priority ≤ t.priority

end Registry

end NoteMarkup
