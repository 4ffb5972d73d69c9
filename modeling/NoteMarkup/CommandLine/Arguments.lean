import NoteMarkup.CommandLine.Override
import NoteMarkup.Text.Digit
import NoteMarkup.Value

/-!
The arguments of the command: one input, and switches. A long switch may be shortened as long as
only one switch starts that way. A switch takes its value from the same argument, after `=` or right
after its letter, or from the next one.
-/

namespace NoteMarkup.CommandLine

/-- The switches. -/
inductive Switch where
  | help
  | slug
  | knownSlugs
  | config
  | noConfig
  | override
  | out
  | metadata
  | resources
  | logLevel
  | logFile
  | trace
  | debugStage
  | version
deriving Repr, DecidableEq, Inhabited

namespace Switch

/-- Every switch, in the order in which matches are listed. -/
def all : List Switch :=
  [.help, .slug, .knownSlugs, .config, .noConfig, .override, .out, .metadata, .resources, .logLevel,
   .logFile, .trace, .debugStage, .version]

/-- The spellings of a switch. -/
def spellings : Switch → List String
  | .help => ["-h", "--help"]
  | .slug => ["--slug"]
  | .knownSlugs => ["--known-slugs"]
  | .config => ["--config"]
  | .noConfig => ["--no-config"]
  | .override => ["--set"]
  | .out => ["--out", "-o"]
  | .metadata => ["--metadata"]
  | .resources => ["--resources"]
  | .logLevel => ["--log-level"]
  | .logFile => ["--log-file"]
  | .trace => ["--trace"]
  | .debugStage => ["--debug-stage"]
  | .version => ["--version"]

/-- How a switch is called in messages. -/
def label (s : Switch) : String := "/".intercalate s.spellings

/-- What the value of a switch is called, if the switch takes one. -/
def value? : Switch → Option String
  | .slug => some "SLUG"
  | .knownSlugs | .config | .out | .logFile => some "FILE"
  | .override => some "KEY=VALUE"
  | .logLevel => some "LEVEL"
  | .debugStage => some "MODULE"
  | _ => none

/-- Whether a switch takes a value. -/
def takesValue (s : Switch) : Bool := s.value?.isSome

/-- What a switch is for. -/
def purpose : Switch → String
  | .help => "show this help and exit"
  | .slug => "page slug of the note (default: derived from the file path)"
  | .knownSlugs => "file listing every known note slug, one per line"
  | .config => "configuration file (.toml, .yaml, .json or pyproject.toml)"
  | .noConfig => "do not search for a configuration file"
  | .override => "override an option flag, e.g. enableCheckbox=true (repeatable)"
  | .out => "write output to FILE instead of standard output"
  | .metadata => "write a JSON object with the HTML, tags, diagram flag and block ids"
  | .resources => "append the required inline scripts and styles"
  | .logLevel => "logging level (default: WARNING)"
  | .logFile => "also write log output to FILE"
  | .trace => "debug logging with timestamps and logger names"
  | .debugStage => "log one transform module at DEBUG, e.g. callouts (repeatable)"
  | .version => "show the version and exit"

/-- Every spelling with its switch. -/
def named : List (String × Switch) := all.flatMap fun s => s.spellings.map (·, s)

/-- The switch with a spelling. -/
def ofSpelling? (spelling : String) : Option Switch := named.lookup spelling

end Switch

/-- Why arguments cannot be read. -/
inductive ArgumentFault where
  /-- A shortened switch that more than one switch starts with. -/
  | ambiguous (argument : String) (spellings : List String)
  | needsValue (s : Switch)
  /-- A value for a switch that takes none. -/
  | ignoredValue (s : Switch) (value : String)
  /-- Two hyphens as the value of a switch: they are dropped as a mark, and no value is left. -/
  | droppedValue (s : Switch)
  | badLevel (value : String)
  | badOverride (f : OverrideFault)
  | noInput
  | unrecognized (arguments : List String)
deriving Repr, DecidableEq, Inhabited

/-- The levels that can be named. -/
def levelChoices : List String := ["DEBUG", "INFO", "WARNING", "ERROR", "CRITICAL"]

/-- A message about a switch. -/
def aboutSwitch (s : Switch) (text : String) : String := "argument " ++ s.label ++ ": " ++ text

/-- What a fault says. -/
def ArgumentFault.message : ArgumentFault → String
  | .ambiguous a ss => "ambiguous option: " ++ a ++ " could match " ++ ", ".intercalate ss
  | .needsValue s => aboutSwitch s "expected one argument"
  | .ignoredValue s v => aboutSwitch s ("ignored explicit argument " ++ Value.quoted v)
  | .droppedValue s => aboutSwitch s "no value is left"
  | .badLevel v =>
    aboutSwitch .logLevel ("invalid choice: " ++ Value.quoted v ++ " (choose from "
      ++ ", ".intercalate (levelChoices.map Value.quoted) ++ ")")
  | .badOverride f => aboutSwitch .override f.message
  | .noInput => "the following arguments are required: input"
  | .unrecognized as => "unrecognized arguments: " ++ " ".intercalate as

/-- How an argument reads by itself. A value may be joined to a switch in the same argument. -/
inductive Reading where
  | word
  | switch (s : Switch) (short : Bool) (joined : Option (List Char))
  /-- It looks like a switch, but no switch is spelled that way. -/
  | unknown
deriving Repr, DecidableEq

/-- A negative number is no switch. -/
def isNegativeNumber (s : List Char) : Bool :=
  match s with
  | '-' :: r =>
    let whole := r.takeWhile Text.isDigit
    match r.dropWhile Text.isDigit with
    | '.' :: f =>
      !(f.takeWhile Text.isDigit).isEmpty && Text.atTextEnd (f.dropWhile Text.isDigit)
    | rest => !whole.isEmpty && Text.atTextEnd rest
  | _ => false

/-- Whether a spelling is a hyphen and a letter. -/
def isShort (spelling : String) : Bool := spelling.length == 2

/-- The switches that an argument with two hyphens may shorten. -/
def longMatches (s : List Char) : List (String × Reading) :=
  let (front, joined) : List Char × Option (List Char) := match Text.cutAt '=' s with
    | some (front, value) => (front, some value)
    | none => (s, none)
  (Switch.named.filter fun e => front.isPrefixOf e.1.toList).map fun e =>
    (e.1, .switch e.2 (isShort e.1) joined)

/-- The switches that an argument with one hyphen may name: a letter with its value, or the
beginning of a spelling. -/
def shortMatches (s : List Char) : List (String × Reading) :=
  Switch.named.filterMap fun e =>
    if e.1.toList == s.take 2 then some (e.1, .switch e.2 true (some (s.drop 2)))
    else if s.isPrefixOf e.1.toList then some (e.1, .switch e.2 (isShort e.1) none)
    else none

/-- How an argument before any `--` reads. -/
def reading (argument : String) : Except ArgumentFault Reading :=
  match argument.toList with
  | '-' :: c :: r =>
    match Switch.ofSpelling? argument with
    | some s => .ok (.switch s (isShort argument) none)
    | none =>
      let whole := (Text.cutAt '=' ('-' :: c :: r)).bind fun p =>
        (Switch.ofSpelling? (String.ofList p.1)).map fun s =>
          Reading.switch s (isShort (String.ofList p.1)) (some p.2)
      match whole with
      | some r => .ok r
      | none =>
        match if c == '-' then longMatches ('-' :: c :: r) else shortMatches ('-' :: c :: r) with
        | [m] => .ok m.2
        | m :: ms => .error (.ambiguous argument ((m :: ms).map (·.1)))
        | [] =>
          if isNegativeNumber ('-' :: c :: r) || r.contains ' ' || c == ' ' then .ok .word
          else .ok .unknown
  | _ => .ok .word

/-- What the arguments ask for. -/
structure Invocation where
  input : String
  slug : Option String
  knownSlugs : Option String
  config : Option String
  noConfig : Bool
  overrides : List (String × Bool)
  out : Option String
  metadata : Bool
  resources : Bool
  logLevel : String
  logFile : Option String
  trace : Bool
  debugStages : List String
deriving Repr, DecidableEq, Inhabited

/-- The invocation without switches. -/
def Invocation.plain : Invocation :=
  ⟨"", none, none, none, false, [], none, false, false, "WARNING", none, false, []⟩

/-- What is to be done: process a note, or show a text and end. -/
inductive Command where
  | process (i : Invocation)
  | help
  | version
deriving Repr, DecidableEq, Inhabited

/-- The mark after which every argument is a word. -/
def wordMark : String := "--"

/-- An invocation with one more switch set. -/
def Invocation.set (i : Invocation) (s : Switch) (value : String) :
    Except ArgumentFault Invocation :=
  if value == wordMark then .error (.droppedValue s)
  else match s with
  | .slug => .ok { i with slug := some value }
  | .knownSlugs => .ok { i with knownSlugs := some value }
  | .config => .ok { i with config := some value }
  | .noConfig => .ok { i with noConfig := true }
  | .override =>
    match parseOverride value with
    | .ok o => .ok { i with overrides := i.overrides ++ [o] }
    | .error f => .error (.badOverride f)
  | .out => .ok { i with out := some value }
  | .metadata => .ok { i with metadata := true }
  | .resources => .ok { i with resources := true }
  | .logLevel =>
    if levelChoices.contains value then .ok { i with logLevel := value }
    else .error (.badLevel value)
  | .logFile => .ok { i with logFile := some value }
  | .trace => .ok { i with trace := true }
  | .debugStage => .ok { i with debugStages := i.debugStages ++ [value] }
  | .help | .version => .ok i

/-- What one argument sets: switches with their values. -/
structure Setting where
  switches : List (Switch × String)
  /-- Whether the next argument is the value of the last switch. -/
  usesNext : Bool
deriving Repr, DecidableEq

/-- The value that an argument gives to a switch. -/
def nextValue (s : Switch) (next : Option (String × Reading)) : Except ArgumentFault Setting :=
  if !s.takesValue then .ok ⟨[(s, "")], false⟩
  else
    match next with
    | some (value, .word) => .ok ⟨[(s, value)], true⟩
    | _ => .error (.needsValue s)

/-- What an argument sets that starts with a switch. After the letter of a switch without value the
letters of more switches may follow. -/
def setting (next : Option (String × Reading)) :
    (fuel : Nat) → Switch → Bool → Option (List Char) → Except ArgumentFault Setting
  | 0, s, _, _ => nextValue s next
  | fuel + 1, s, short, joined =>
    match joined with
    | none => nextValue s next
    | some text =>
      let ignored := ArgumentFault.ignoredValue s (String.ofList text)
      if s.takesValue then .ok ⟨[(s, String.ofList text)], false⟩
      else
        match text with
        | [] => .error ignored
        | c :: r =>
          match if short then Switch.ofSpelling? (String.ofList ['-', c]) else none with
          | none => .error ignored
          | some t => do
            let more ← setting next fuel t true (if r.isEmpty then none else some r)
            return { more with switches := (s, "") :: more.switches }

/-- Arguments that are being read: the input, if there is one yet, what is set, and what is not
recognized. -/
structure Progress where
  input : Option String
  /-- Whether the last argument is the input. -/
  atInput : Bool
  invocation : Invocation
  extras : List String
deriving Repr, DecidableEq

/-- Nothing has been read. -/
def Progress.start : Progress := ⟨none, false, .plain, []⟩

/-- Takes switches in order; help and version end the reading. -/
def Progress.take (p : Progress) :
    List (Switch × String) → Except ArgumentFault (Progress ⊕ Command)
  | [] => .ok (.inl p)
  | (.help, _) :: _ => .ok (.inr .help)
  | (.version, _) :: _ => .ok (.inr .version)
  | (s, value) :: rest => do
    let i ← p.invocation.set s value
    Progress.take { p with invocation := i } rest

/-- Takes an argument that is no switch: the first one is the input. -/
def Progress.word (p : Progress) (argument : String) : Progress :=
  match p.input with
  | none => { p with input := some argument, atInput := true }
  | some _ => { p with atInput := false, extras := p.extras ++ [argument] }

/-- Reads arguments before any `--` in order. -/
def Progress.readAll : (fuel : Nat) → Progress → List (String × Reading) →
    Except ArgumentFault (Progress ⊕ Command)
  | 0, p, _ => .ok (.inl p)
  | _, p, [] => .ok (.inl p)
  | fuel + 1, p, (argument, r) :: rest =>
    match r with
    | .word => readAll fuel (p.word argument) rest
    | .unknown => readAll fuel { p with atInput := false, extras := p.extras ++ [argument] } rest
    | .switch s short joined => do
      let set ← setting rest.head? (argument.length + 1) s short joined
      match ← p.take set.switches with
      | .inr command => return .inr command
      | .inl p =>
        let p := { p with atInput := false }
        readAll fuel p (if set.usesNext then rest.drop 1 else rest)

/-- Reads the arguments from `--` on, which are words. The mark itself counts for nothing if the
input stands right before or right after it. -/
def Progress.readWords (p : Progress) : List String → Progress
  | [] => p
  | mark :: words =>
    let p := if p.input.isNone || p.atInput then p else { p with extras := p.extras ++ [mark] }
    words.foldl Progress.word p

/-- The command that arguments ask for. -/
def readArguments (arguments : List String) : Except ArgumentFault Command := do
  let front := arguments.takeWhile (· != wordMark)
  let read ← front.mapM fun a => do return (a, ← reading a)
  match ← Progress.readAll (read.length + 1) .start read with
  | .inr command => return command
  | .inl p =>
    let p := p.readWords (arguments.dropWhile (· != wordMark))
    match p.input with
    | none => throw .noInput
    | some input =>
      if p.extras.isEmpty then return .process { p.invocation with input := input }
      else throw (.unrecognized p.extras)

end NoteMarkup.CommandLine
