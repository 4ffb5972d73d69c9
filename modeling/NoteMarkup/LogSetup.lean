import NoteMarkup.Log
import NoteMarkup.Path
import NoteMarkup.Text.Case

/-!
The log setup: levels of loggers, and the handlers of the package logger. A record passes if its
logger lets its level through, and reaches each handler whose own level lets it through.

A setup call replaces the handlers and the level of the package logger. Levels of stage loggers that
earlier calls set stay.
-/

namespace NoteMarkup.LogSetup

open Log

/-- The logger of the package, above all others of the library. -/
def packageLogger : String := "ofmark"

/-- The beginning of the names of stage loggers. -/
def stageFront : String := "ofmark.transforms."

/-- The names of levels. -/
def levelNames : List (String × Int) :=
  [("CRITICAL", 50), ("FATAL", 50), ("ERROR", 40), ("WARN", 30), ("WARNING", 30), ("INFO", 20),
   ("DEBUG", 10), ("NOTSET", 0)]

/-- The level with a name in any case; an unknown name means the level of information. -/
def levelOfName (name : String) : Int :=
  (levelNames.lookup (String.ofList (Text.upper name.toList))).getD 20

/-- A level, given by number or by name. -/
inductive LevelSpec where
  | number (n : Int)
  | name (s : String)
deriving Repr, DecidableEq, Inhabited

/-- The number of a level. -/
def LevelSpec.resolve : LevelSpec → Int
  | .number n => n
  | .name s => levelOfName s

/-- The name under which a level is written. -/
def levelLabel (n : Int) : String :=
  if n = 50 then "CRITICAL" else if n = 40 then "ERROR" else if n = 30 then "WARNING"
  else if n = 20 then "INFO" else if n = 10 then "DEBUG" else if n = 0 then "NOTSET"
  else "Level " ++ toString n

/-- Where a handler writes. -/
inductive Sink where
  | console
  | file (path : Path)
deriving Repr, DecidableEq, Inhabited

/-- A handler. A traced one writes the time and the logger of a record too. -/
structure Handler where
  sink : Sink
  level : Int
  traced : Bool
deriving Repr, DecidableEq, Inhabited

/-- The levels that have been set, and the handlers of the package logger. -/
structure Setup where
  packageLevel : Int
  handlers : List Handler
  stageLevels : List (String × Int)
deriving Repr, DecidableEq, Inhabited

/-- The setup of a program that has made none. -/
def Setup.initial : Setup := ⟨0, [], []⟩

/-- The arguments of a setup call. -/
structure Request where
  level : LevelSpec
  logFile : Option String
  traced : Bool
  stageLevels : List (String × LevelSpec)
deriving Repr, Inhabited

/-- Sets the level of a logger. -/
def setLevel (levels : List (String × Int)) (logger : String) (n : Int) : List (String × Int) :=
  match levels with
  | [] => [(logger, n)]
  | (l, m) :: rest => if l == logger then (l, n) :: rest else (l, m) :: setLevel rest logger n

/-- The levels that a call sets for stage loggers. -/
def Request.overrides (q : Request) : List (String × Int) :=
  q.stageLevels.foldl (fun acc s => setLevel acc s.1 s.2.resolve) []

/-- The level of the handlers: the most verbose level of the call. -/
def Request.handlerLevel (q : Request) : Int :=
  q.overrides.foldl (fun acc s => min acc s.2) q.level.resolve

/-- The setup after a call, which opens the file `opened`. -/
def Setup.after (s : Setup) (q : Request) (opened : Option Path) : Setup where
  packageLevel := q.level.resolve
  handlers := ⟨.console, q.handlerLevel, q.traced⟩ ::
    opened.toList.map fun path => ⟨.file path, q.handlerLevel, q.traced⟩
  stageLevels := q.overrides.foldl (fun acc o => setLevel acc o.1 o.2) s.stageLevels

/-- A logger and those above it: the names that end at a point. -/
def lineage (logger : String) : List String :=
  let parts := Text.splitAtChar '.' logger.toList
  (List.range parts.length).reverse.map fun n =>
    String.ofList (Text.joinWith ['.'] (parts.take (n + 1)))

/-- The level that is set for a logger; 0 if none is. -/
def Setup.ownLevel (s : Setup) (logger : String) : Int :=
  if logger == packageLogger then s.packageLevel
  else
    match Text.afterFront? stageFront.toList logger.toList with
    | some stage => (s.stageLevels.lookup (String.ofList stage)).getD 0
    | none => 0

/-- The level from which on a logger lets records through: its own, else that of the next logger
above it, and in the end that of warnings. -/
def Setup.effectiveLevel (s : Setup) (logger : String) : Int :=
  (((lineage logger).map s.ownLevel).find? (· != 0)).getD 30

/-- Whether records of a logger and a level reach a handler. A record without a positive level
reaches none, and so does one of a logger outside the package. -/
def Setup.reaches (s : Setup) (logger : String) (level : Int) (h : Handler) : Bool :=
  0 < level && s.effectiveLevel logger ≤ level && (lineage logger).contains packageLogger
    && h.level ≤ level

/-- The text of a record as a handler writes it; `time` is the time of the record. -/
def Handler.format (h : Handler) (time : String) (level : Int) (logger message : String) : String :=
  if h.traced then
    "[" ++ time ++ "] [" ++ levelLabel level ++ "] [" ++ logger ++ "] " ++ message ++ "\n"
  else levelLabel level ++ ": " ++ message ++ "\n"

end NoteMarkup.LogSetup
