import NoteMarkup.Context
import NoteMarkup.Fault
import NoteMarkup.Log
import NoteMarkup.Node.Transform
import NoteMarkup.Options

/-!
Stages. A stage transforms the tree of a note node by node; on the way it may read and change the
note's context, write log records, and fail. What it has changed before a failure stays changed.
-/

namespace NoteMarkup

/-- What a stage can change besides the tree. -/
structure Run where
  context : Context
  log : Log.Records
deriving Inhabited

/-- A step of a stage. -/
abbrev StageM := ExceptT Fault (StateM Run)

namespace StageM

/-- Writes a debug record for one of the stage modules. -/
def debug (module text : String) : StageM Unit :=
  modify fun r =>
    { r with log := r.log ++ [⟨Log.debug, "ofmark.transforms." ++ module, text, none⟩] }

/-- The context as it is now. -/
def context : StageM Context := do return (← get).context

/-- Changes the context. -/
def modifyContext (f : Context → Context) : StageM Unit :=
  modify fun r => { r with context := f r.context }

/-- A computation that cannot change anything. -/
def ofExcept {α : Type} (r : Except Fault α) : StageM α :=
  match r with
  | .ok a => pure a
  | .error e => throw e

end StageM

/-- What a stage does with a node whose children are done. The flag tells whether the node stands
inside a link; no result drops the node. -/
abbrev Visit := Options → Bool → Node → StageM (Option Node)

/-- Runs a visit over a tree. -/
def Visit.run (visit : Visit) (options : Options) (n : Node) : StageM (Option Node) :=
  n.transform (visit options) false

/-- A visit that replaces leaves alone. -/
def Visit.ofLeaf (f : Options → Bool → Leaf → Record → StageM (Option Node)) : Visit
  | options, inLink, .leaf l info => f options inLink l info
  | _, _, n => pure (some n)

end NoteMarkup
