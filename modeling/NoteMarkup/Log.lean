/-!
Log records. Every part of the library names the logger that it writes to; what becomes of a record
is decided by the log setup, not here.
-/

namespace NoteMarkup

namespace Log

/-- How severe a record is, as a number: 10 debug, 20 info, 30 warning, 40 error, 50 critical. -/
abbrev Level := Int

def debug : Level := 10
def info : Level := 20
def warning : Level := 30
def error : Level := 40
def critical : Level := 50

/-- One record. `cause` is the wording of the failure that the message reports, if it reports one;
it ends the message. -/
structure Record where
  level : Level
  logger : String
  text : String
  cause : Option String
deriving Repr, DecidableEq, Inhabited

/-- The whole message. -/
def Record.message (r : Record) : String := r.text ++ r.cause.getD ""

/-- Records in the order in which they were written. -/
abbrev Records := List Record

/-- A computation that writes records. -/
abbrev Logged := StateM Records

/-- Writes a record. -/
def write (level : Level) (logger text : String) : Logged Unit :=
  modify (· ++ [⟨level, logger, text, none⟩])

/-- Writes a record that reports a failure. -/
def writeFailure (level : Level) (logger text cause : String) : Logged Unit :=
  modify (· ++ [⟨level, logger, text, some cause⟩])

end Log

end NoteMarkup
