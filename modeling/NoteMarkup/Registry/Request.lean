import NoteMarkup.Registry

/-!
What a host asks of a registry, and what it is answered. The stages are loaded before every access;
looking for plugins and forgetting the stages load nothing.
-/

namespace NoteMarkup.Registry

open Log

/-- A request that needs the stages to be loaded. -/
inductive Access where
  | register (stage : Stage)
  | unregister (name : String)
  | has (name : String)
  | get (name : String)
  | names
  | enabled (options : Options)

/-- A request. -/
inductive Request where
  | access (a : Access)
  | discover
  | clear

/-- An answer. -/
inductive Answer where
  | done
  | flag (b : Bool)
  | stage (s : Stage)
  | names (ns : List String)
  | stages (ss : List Stage)
  | count (n : Nat)

/-- Why a request has no answer. -/
inductive Refusal where
  /-- A plugin declares a faulty stage. -/
  | declaration (f : DeclarationFault)
  | unknown (name : String)
deriving Repr, DecidableEq, Inhabited

/-- What a refusal says. -/
def Refusal.message : Refusal → String
  | .declaration f => f.message
  | .unknown name => "Stage '" ++ name ++ "' not registered"

/-- Answers a request to a registry that is loaded. -/
def answer (r : Registry) : Access → Logged (Registry × Except Refusal Answer)
  | .register s => do return (← r.add s, .ok .done)
  | .unregister name => do
    let (r, removed) ← r.remove name
    return (r, .ok (.flag removed))
  | .has name => return (r, .ok (.flag (r.find? name).isSome))
  | .get name =>
    match r.find? name with
    | some s => return (r, .ok (.stage s))
    | none => return (r, .error (.unknown name))
  | .names => return (r, .ok (.names r.names))
  | .enabled options => return (r, .ok (.stages (r.enabledStages options)))

/-- Answers a request while the plugins `installed` are installed. -/
def ask (r : Registry) (installed : List Plugin) : Request → Logged (Registry × Except Refusal Answer)
  | .access a => do
    match ← r.load installed with
    | (r, .error f) => return (r, .error (.declaration f))
    | (r, .ok ()) => r.answer a
  | .discover => do
    let (r, count) ← r.discover installed
    return (r, (count.map .count).mapError .declaration)
  | .clear => do return (← clear, .ok .done)

/-- Answers requests one after the other, each with the plugins that are installed then. -/
def askAll (r : Registry) :
    List (List Plugin × Request) → Logged (Registry × List (Except Refusal Answer))
  | [] => return (r, [])
  | (installed, q) :: qs => do
    let (r, a) ← r.ask installed q
    let (r, as) ← r.askAll qs
    return (r, a :: as)

end NoteMarkup.Registry
