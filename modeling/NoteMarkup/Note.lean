import NoteMarkup.Callout
import NoteMarkup.FrontMatter
import NoteMarkup.Markdown.Block.Reader
import NoteMarkup.Node.OfToken
import NoteMarkup.Pipeline
import NoteMarkup.Yaml.Draft

/-!
Notes: from the text of a note to its tree, to the transformed tree and its context. Reading a text
never fails but for a scalar of the front matter that has no value.
-/

namespace NoteMarkup.Note

open Log

/-- The marks of the dialect that options switch on. -/
def dialect (options : Options) : Markdown.Dialect where
  marks := options.enabled .highlight
  comments := options.enabled .comments
  references := options.enabled .wikilinks
  tags := options.enabled .parseTags

/-- The tree of a text; what a loader finds in front matter becomes the information on the
document. -/
def parseWith (load : FrontMatter.Loader) (options : Options) (text : String) :
    Logged (Except Fault Node) := do
  match ← FrontMatter.extract load text.toList with
  | .error f => return .error f
  | .ok (body, data) =>
    let tokens := Markdown.tokensOf (dialect options) body
    return (Node.ofBlockTokens tokens).map fun nodes => .branch .document nodes data

/-- The tree of a text. -/
def parse (options : Options) (text : String) : Logged (Except Fault Node) :=
  parseWith Yaml.load options text

/-- The text of a source, which may turn out to be no text. -/
def textOf (source : Value) : Except Error String :=
  match source with
  | .str s => .ok s
  | v => .error (.sourceType v.typeName)

/-- A text in which the directive of a callout is a paragraph of its own. -/
def normalize (options : Options) (text : String) : String :=
  if options.enabled .callouts then Callout.normalize text else text

/-- The normalized text of a source. -/
def normalizedText (options : Options) (source : Value) : Except Error String :=
  match source with
  | .str s => .ok (normalize options s)
  | v =>
    if options.enabled .callouts then .error (.fault (.wrongType "text" v.typeName))
    else .error (.sourceType v.typeName)

/-- A transformed note: its tree and what the stages have recorded. -/
structure Processed where
  document : Node
  context : Context

/-- Reads a source and runs the enabled stages of a registry on it. -/
def process (r : Registry) (options : Options) (source : Value) (c : Context) :
    Logged (Except Error Processed) := do
  match normalizedText options source with
  | .error e => return .error e
  | .ok text =>
    match ← parse options text with
    | .error f => return .error (.fault f)
    | .ok n =>
      let (result, c) ← Pipeline.transform r options n c
      return result.map fun m => ⟨Pipeline.addTags m c.tags, c⟩

end NoteMarkup.Note
