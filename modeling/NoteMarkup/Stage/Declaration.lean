import NoteMarkup.Stage.Basic

/-!
Stages as a registry holds them: a transformation with a name, the flag that switches it and a
priority. A declaration becomes a stage if its name is not empty, it declares a transformation, its
priority is not negative and its flag exists.
-/

namespace NoteMarkup

/-- A transformation and the name of its class. -/
structure Transformation where
  className : String
  visit : Visit

/-- A stage of the pipeline. -/
structure Stage where
  name : String
  description : String
  transformation : Transformation
  option : Option Flag
  priority : Nat
  tags : List String

/-- What a declaration offers as its transformation. -/
inductive Offer where
  | transformation (t : Transformation)
  /-- A class that is no transformation. -/
  | other (className : String)

/-- A stage as it is declared. -/
structure Declaration where
  name : String
  description : String
  offer : Offer
  option : Option String
  priority : Int
  tags : List String

/-- Why a declaration gives no stage. -/
inductive DeclarationFault where
  | emptyName
  | notTransformation (className : String)
  | negativePriority (priority : Int)
  | unknownFlag (stage flag : String)
deriving Repr, DecidableEq, Inhabited

/-- What a fault says. -/
def DeclarationFault.message : DeclarationFault → String
  | .emptyName => "Stage name cannot be empty"
  | .notTransformation c => "transformer_class must inherit from ObsidianTransform, got " ++ c
  | .negativePriority p => "Priority must be non-negative, got " ++ toString p
  | .unknownFlag s f => "Unknown option flag for stage '" ++ s ++ "': " ++ f

/-- The flag that a declaration names. -/
def Declaration.flag (d : Declaration) : Except DeclarationFault (Option Flag) :=
  match d.option with
  | none => .ok none
  | some o =>
    match Flag.ofName? o with
    | some f => .ok (some f)
    | none => .error (.unknownFlag d.name o)

/-- The stage that a declaration gives. -/
def Declaration.toStage (d : Declaration) : Except DeclarationFault Stage := do
  if d.name.isEmpty then throw .emptyName
  match d.offer with
  | .other c => throw (.notTransformation c)
  | .transformation t =>
    if d.priority < 0 then throw (.negativePriority d.priority)
    let option ← d.flag
    return ⟨d.name, d.description, t, option, d.priority.toNat, d.tags⟩

/-- Whether a stage runs: its flag is set, or it has none. -/
def Stage.isEnabled (s : Stage) (options : Options) : Bool :=
  match s.option with
  | none => true
  | some f => options.enabled f

end NoteMarkup
