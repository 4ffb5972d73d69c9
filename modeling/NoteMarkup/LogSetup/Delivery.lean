import NoteMarkup.Host
import NoteMarkup.LogSetup

/-!
The delivery of log records to the console and to log files, and setup calls, which open the files.
-/

namespace NoteMarkup.LogSetup

variable {m : Type → Type} [Monad m] [Host m]

/-- Writes a record. -/
def Handler.emit (h : Handler) (r : Log.Record) : m Unit := do
  let cause ← match r.cause with
    | some cause => Host.wording cause
    | none => pure ""
  let line := h.format (← Host.time) r.level r.logger (r.text ++ cause)
  match h.sink with
  | .console => Host.printError line
  | .file path => discard <| Host.append path line

/-- Brings a record to the handlers that it reaches. -/
def Setup.deliver (s : Setup) (r : Log.Record) : m Unit :=
  (s.handlers.filter (s.reaches r.logger r.level)).forM (·.emit r)

/-- Opens a log file. -/
def openFile (name : String) : m (Except String Path) := do
  match ← Host.resolve (Path.ofString name) with
  | .error cause => return .error cause
  | .ok path => return (← Host.append path "").map fun _ => path

/-- A setup call. A log file that cannot be opened is left out. -/
def Setup.configure (s : Setup) (q : Request) : m Setup := do
  match q.logFile.filter (· != "") with
  | none => return s.after q none
  | some name =>
    match ← openFile name with
    | .error cause =>
      let s := s.after q none
      s.deliver
        ⟨Log.warning, packageLogger, "Could not create log file " ++ name ++ ": ", some cause⟩
      return s
    | .ok path =>
      let s := s.after q (some path)
      s.deliver ⟨Log.debug, packageLogger, "Logging to file: " ++ name, none⟩
      return s

end NoteMarkup.LogSetup
