import NoteMarkup.Error
import NoteMarkup.LogSetup.Delivery

/-!
Tasks of a command on a host. A task may fail with an error of the library, and its log records are
delivered as they are written.
-/

namespace NoteMarkup

/-- A task under a log setup. -/
abbrev Task (m : Type → Type) := ReaderT LogSetup.Setup (ExceptT Error m)

namespace Task

variable {m : Type → Type} [Monad m] [Host m]

/-- Does what the host does. -/
def onHost {α : Type} (act : m α) : Task m α := fun _ => ExceptT.lift act

/-- Does what the host does at a path. No error is made of its failure. -/
def reach {α : Type} (p : Path) (act : m (Except String α)) : Task m α := do
  match ← onHost act with
  | .ok a => return a
  | .error cause => throw (.fault (.unreadable p.text cause))

/-- Goes on with a result, or fails with an error. -/
def ofExcept {α : Type} (r : Except Error α) : Task m α := fun _ => ExceptT.mk (pure r)

/-- Gives a path for which the system can be asked. -/
def nameable (p : Path) : Task m Path :=
  if p.isNameable then pure p else throw (.fault .unnameable)

/-- Delivers a record. -/
def deliver (r : Log.Record) : Task m Unit := fun s => ExceptT.lift (s.deliver r)

/-- Writes a record. -/
def log (level : Log.Level) (logger text : String) : Task m Unit :=
  deliver ⟨level, logger, text, none⟩

/-- Runs a computation and delivers the records that it writes. -/
def ofLogged {α : Type} (act : Log.Logged (Except Error α)) : Task m α := do
  let (r, records) := act.run []
  records.forM deliver
  ofExcept r

end Task

end NoteMarkup
