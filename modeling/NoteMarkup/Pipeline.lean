import NoteMarkup.Error
import NoteMarkup.Node.Walk
import NoteMarkup.Registry

/-!
The pipeline: the enabled stages, one after the other, on the tree of a note. Each stage takes the
tree of the one before it, and all share the note's context.
-/

namespace NoteMarkup.Pipeline

open Log

/-- The logger of the pipeline. -/
def logger : String := "ofmark.transforms.pipeline"

/-- Runs a stage on a tree. The context keeps what a failed stage has changed. -/
def runStage (options : Options) (s : Stage) (n : Node) (c : Context) :
    Logged (Except Fault (Option Node) × Context) := do
  let (result, run) := ((s.transformation.visit.run options n).run).run ⟨c, ← get⟩
  set run.log
  return (result, run.context)

/-- Runs stages in order, up to the first that fails or gives no document. -/
def runStages (options : Options) (n : Node) (c : Context) :
    List Stage → Logged (Except Error Node × Context)
  | [] => return (.ok n, c)
  | s :: ss => do
    write debug logger ("Applying stage: " ++ s.name)
    match ← runStage options s n c with
    | (.error f, c) =>
      writeFailure error logger ("Stage " ++ s.name ++ " failed on " ++ c.slug ++ ": ") f.message
      return (.error (.stageFailed s.name f), c)
    | (.ok none, c) => return (.error (.stageResult s.name none), c)
    | (.ok (some m), c) =>
      if m.kind == .document then runStages options m c ss
      else return (.error (.stageResult s.name (some m.kind)), c)

/-- The names of the kinds of nodes, sorted and without repetition. -/
def kindNames (ns : List Node) : List String :=
  ((ns.map fun n => n.kind.name).mergeSort).eraseDups

/-- Warns of dialect nodes that no stage has resolved. -/
def warnLeftover (n : Node) (slug : String) : Logged Unit := do
  let left := n.dialectNodes
  if !left.isEmpty then
    write warning logger (toString left.length ++ " dialect node(s) left unresolved in " ++ slug
      ++ " (" ++ ", ".intercalate (kindNames left) ++ "); they render as source text")

/-- Runs the enabled stages of a registry on a document. -/
def transform (r : Registry) (options : Options) (n : Node) (c : Context) :
    Logged (Except Error Node × Context) := do
  let stages := r.enabledStages options
  write debug logger ("Applying " ++ toString stages.length ++ " stage(s) to " ++ c.slug)
  match ← runStages options n c stages with
  | (.ok m, c) =>
    warnLeftover m c.slug
    return (.ok m, c)
  | r => return r

/-- Renders a document. -/
def render (n : Node) : Logged (Except Error String) := do
  match Html.ofDocument n with
  | .ok html => return .ok html
  | .error f =>
    writeFailure error logger "Rendering failed: " f.message
    return .error (.renderFailed f)

/-- The texts of the items that are there. -/
def itemTexts (items : List Value) : List String :=
  (items.filter fun v => match v with | .null => false | _ => true).map Value.text

/-- The tags that front matter gives: a list, or the words of a text, which commas may part. -/
def givenTags : Value → List String
  | .null => []
  | .str s =>
    (Text.words (s.toList.map fun c => if c == ',' then ' ' else c)).map String.ofList
  | .list items => itemTexts items
  | .pair a b => itemTexts [a, b]
  | v => [v.text]

/-- The first occurrences of the texts that are not empty. -/
def firsts (texts : List String) : List String :=
  texts.foldl (fun acc t => if t.isEmpty || acc.contains t then acc else acc ++ [t]) []

/-- The slugs of the tags that front matter gives, then those found in the note. -/
def mergeTags (given : Value) (collected : List String) : List String :=
  firsts ((givenTags given).map Slug.ofTag ++ collected)

/-- The key of the tags in front matter. -/
def tagsKey : Value := .str "tags"

/-- The document with the tags found in it among its front matter. -/
def addTags (n : Node) (tags : List String) : Node :=
  if tags.isEmpty && !n.info.has tagsKey then n
  else
    let given := (n.info.get? tagsKey).getD .null
    n.withInfo (n.info.set tagsKey (.list ((mergeTags given tags).map .str)))

end NoteMarkup.Pipeline
