import NoteMarkup.Assets
import NoteMarkup.CommandLine.Arguments
import NoteMarkup.Configuration
import NoteMarkup.Json.Printer
import NoteMarkup.Note

/-!
The command: it reads one note, processes it, and writes the HTML, or a JSON object that also holds
what was collected. Every error of the library ends it with an exit code; only failures that no part
reports leave it as they are.
-/

namespace NoteMarkup.CommandLine

/-- The name of the command. -/
def commandName : String := "ofmark"

/-- The version of the library. -/
def version : String := "0.1.0"

/-- The name of an input that stands for the standard input. -/
def standardInput : String := "-"

/-- The logger of the command. -/
def logger : String := "ofmark.cli"

/-- The help text. -/
def helpText : String :=
  let line (s : Switch) : String :=
    "  " ++ ", ".intercalate s.spellings ++ ((s.value?.map (" " ++ ·)).getD "") ++ "\n      "
      ++ s.purpose ++ "\n"
  "usage: " ++ commandName ++ " [switches] input\n\n"
    ++ "Render a note to an HTML fragment. The input is a file, or - for standard input.\n\n"
    ++ String.join (Switch.all.map line)

/-- The lines of a list of slugs that hold one: blank lines and comments do not. -/
def slugLines (text : String) : List String :=
  ((Text.lines text.toList).map Text.trim).filterMap fun line =>
    if line.isEmpty || line.head? == some '#' then none else some (String.ofList line)

/-- The slugs that a text lists. -/
def slugsOf (text : String) : List String := (slugLines text).eraseDups

variable {m : Type → Type} [Monad m] [Host m]

/-- The text of an input. -/
def readText (name : String) : Task m String := do
  if name == standardInput then
    match ← Task.onHost Host.input with
    | .error f => throw (.fault f)
    | .ok text => return text
  else
    match ← Task.onHost (Host.read (← Task.nameable (Path.ofString name))) with
    | .error cause => throw (.cannotRead name cause)
    | .ok octets =>
      match Text.ofOctets octets with
      | .error f => throw (.cannotRead name f.message)
      | .ok text => return String.ofList (Text.normalizeLines text)

/-- The slugs that a file lists. -/
def readSlugs (name : String) : Task m (List String) := do
  let slugs := slugsOf (← readText name)
  Task.log Log.debug logger
    ("Loaded " ++ toString slugs.length ++ " known slug(s) from " ++ name)
  return slugs

/-- The slug of an absolute path to a note: outside the directory `d` the name alone counts. -/
def slugOfPath (d p : Path) : String :=
  Slug.page ((p.below? d).getD (Path.ofString p.name)).text true

/-- The slug of a note that is given none. -/
def slugOf (name : String) : Task m String := do
  if name == standardInput then return Context.defaultSlug
  else
    let path ← Task.nameable (Path.ofString name)
    let place ← Task.reach path (Host.resolve path)
    return slugOfPath (← Task.reach Path.here (Host.resolve Path.here)) place

/-- A text that is not empty. -/
def given (text : Option String) : Option String := text.filter (· != "")

/-- Where configuration files are looked for: the directory of the input. -/
def searchStart (i : Invocation) : Path :=
  if i.input == standardInput then Path.here else (Path.ofString i.input).parent

/-- The configuration file of an invocation: the one it names, else the one that is found from the
directory of the input on. -/
def configFile (i : Invocation) : Task m (Option Path) := do
  match given i.config, i.noConfig with
  | some name, _ => return some (Path.ofString name)
  | none, true => return none
  | none, false =>
    let found ← Configuration.discover? (searchStart i)
    if let some p := found then Task.log Log.info logger ("Using configuration file " ++ p.text)
    return found

/-- The entries that overrides set. -/
def overrideEntries (overrides : List (String × Bool)) : Record :=
  Record.ofList (overrides.map fun o => (.str o.1, .bool o.2))

/-- The object that holds what was collected about a note. -/
def summary (p : Note.Processed) (html : String) (o : Options) : Value :=
  let blocks := (p.context.blocks.map fun b => b.1.text).mergeSort
  .map
    [(.str "slug", .str p.context.slug),
     (.str "html", .str html),
     (.str "tags", .list (p.context.tags.map .str)),
     (.str "has_mermaid_diagram", .bool p.context.hasDiagram),
     (.str "blocks", .list (blocks.map .str)),
     (.str "frontmatter", .map p.document.info),
     (.str "options", .map o.toRecord)]

/-- The markup of a note with the scripts and styles that it needs, if an invocation asks for
them. -/
def withAssets (i : Invocation) (o : Options) (html : String) : Task m String := do
  if i.resources then
    let r ← Task.ofLogged (fun log => let (r, log) := (Assets.require o).run log; (.ok r, log))
    return html ++ r.toHtml ++ "\n"
  else return html

/-- The markup of a note, or the object that also holds what was collected. -/
def shownText (i : Invocation) (o : Options) (p : Note.Processed) (html : String) :
    Except Error String :=
  if i.metadata then
    match Json.print (summary p html o) with
    | .ok text => .ok (text ++ "\n")
    | .error f => .error (.fault f)
  else .ok html

/-- What is written for a note. -/
def outputText (i : Invocation) (o : Options) (p : Note.Processed) (html : String) :
    Task m String := do
  Task.ofExcept (shownText i o p (← withAssets i o html))

/-- Writes the output to a file, or prints it. -/
def writeOutput (out : Option String) (text : String) : Task m Unit := do
  match out with
  | none => Task.onHost (Host.print text)
  | some name =>
    match ← Task.onHost (Host.write (← Task.nameable (Path.ofString name)) text) with
    | .ok () => return ()
    | .error cause => throw (.cannotWrite name cause)

/-- The options of an invocation. -/
def readOptions (i : Invocation) : Task m Options := do
  Configuration.options (← configFile i) (overrideEntries i.overrides)

/-- The slugs of the known notes, if an invocation lists them. -/
def knownSlugs (i : Invocation) : Task m (Option (List String)) := do
  match given i.knownSlugs with
  | some name => return some (← readSlugs name)
  | none => return none

/-- The slug of the note of an invocation. -/
def noteSlug (i : Invocation) : Task m String := do
  match given i.slug with
  | some slug => return slug
  | none => slugOf i.input

/-- What is to be processed: the text of a note, and how. -/
structure Job where
  options : Options
  known : Option (List String)
  slug : String
  text : String

/-- Reads all that an invocation names. -/
def prepare (i : Invocation) : Task m Job := do
  let options ← readOptions i
  let known ← knownSlugs i
  let slug ← noteSlug i
  return ⟨options, known, slug, ← readText i.input⟩

/-- The transformed note of a job and its markup. -/
def perform (j : Job) : Task m (Note.Processed × String) := do
  let p ← Task.ofLogged
    (Note.process Registry.builtin j.options (.str j.text) (Context.new j.slug j.known))
  return (p, ← Task.ofLogged (Pipeline.render p.document))

/-- Processes the note of an invocation. -/
def process (i : Invocation) : Task m Unit := do
  let job ← prepare i
  let (p, html) ← perform job
  writeOutput i.out (← outputText i job.options p html)

/-- The setup call of an invocation. -/
def logRequest (i : Invocation) : LogSetup.Request where
  level := if i.trace then .number Log.debug else .name i.logLevel
  logFile := i.logFile
  traced := i.trace
  stageLevels := i.debugStages.eraseDups.map fun stage => (stage, .number Log.debug)

/-- The log setup of an invocation. -/
def startLog (i : Invocation) : m (Except Fault LogSetup.Setup) := do
  if (given i.logFile).all fun name => (Path.ofString name).isNameable then
    return .ok (← LogSetup.Setup.initial.configure (logRequest i))
  else return .error .unnameable

/-- Prints an error. -/
def report (s : LogSetup.Setup) (e : Error) : m Unit := do
  s.deliver ⟨Log.debug, logger, "Processing failed", none⟩
  let cause ← match e.cause? with
    | some cause => Host.wording cause
    | none => pure ""
  Host.printError ("Error: " ++ e.headline ++ cause ++ "\n")

/-- Ends a command that has failed: prints the error and gives the exit code. -/
def finish (s : LogSetup.Setup) (e : Error) : m (Except Fault Nat) := do
  match e with
  | .fault f => return .error f
  | e =>
    report s e
    return .ok e.exitCode

/-- Runs the command: the exit code, or a failure that no part reports. -/
def run (arguments : List String) : m (Except Fault Nat) := do
  match readArguments arguments with
  | .error (.droppedValue _) => return .error (.noneLeft 1)
  | .error f =>
    Host.printError (commandName ++ ": error: " ++ f.message ++ "\n")
    return .ok 2
  | .ok .help =>
    Host.print helpText
    return .ok 0
  | .ok .version =>
    Host.print (commandName ++ " " ++ version ++ "\n")
    return .ok 0
  | .ok (.process i) =>
    match ← startLog i with
    | .error f => return .error f
    | .ok setup =>
      match ← ((process i).run setup).run with
      | .ok () => return .ok 0
      | .error e => finish setup e

end NoteMarkup.CommandLine
