import NoteMarkup.Slug
import NoteMarkup.Text.Pattern
import NoteMarkup.Text.Word
import NoteMarkup.Value

/-!
Callouts: block quotes that open with a directive line.

```
directive ::= "[!" kind ["|"] [metadata] "]" ["+" | "-"] title
```

A kind is made of word characters and `-`. Kinds have aliases; the canonical kind of an alias is
the kind that it stands for, and a kind outside the table stands for itself in lower case.
-/

namespace NoteMarkup.Callout

open Text

/-- How a callout folds: not at all, open at first, or closed at first. -/
inductive Fold where
  | fixed
  | opened
  | closed
deriving Repr, DecidableEq, Inhabited

/-- The mark after the closing bracket. -/
def Fold.mark : Fold → String
  | .fixed => ""
  | .opened => "+"
  | .closed => "-"

/-- The directive that opens a callout. -/
structure Directive where
  kind : String
  rawKind : String
  metadata : Option String
  fold : Fold
  title : String
deriving Repr, DecidableEq, Inhabited

/-- Whether a fold mark is present. -/
def Directive.collapsible (d : Directive) : Bool := d.fold != .fixed

/-- Whether the callout is closed at first. -/
def Directive.collapsed (d : Directive) : Bool := d.fold == .closed

/-- The kinds with a look of their own and their aliases, each with its canonical kind. -/
def aliases : List (String × String) :=
  [("note", "note"), ("abstract", "abstract"), ("summary", "abstract"), ("tldr", "abstract"),
   ("info", "info"), ("todo", "todo"), ("tip", "tip"), ("hint", "tip"), ("important", "tip"),
   ("success", "success"), ("check", "success"), ("done", "success"), ("question", "question"),
   ("help", "question"), ("faq", "question"), ("warning", "warning"), ("attention", "warning"),
   ("caution", "warning"), ("failure", "failure"), ("missing", "failure"), ("fail", "failure"),
   ("danger", "danger"), ("error", "danger"), ("bug", "bug"), ("example", "example"),
   ("quote", "quote"), ("cite", "quote")]

/-- The canonical kind. -/
def canonical (kind : String) : String :=
  let k := String.ofList (lower kind.toList)
  (aliases.lookup k).getD k

/-- A character of a kind. -/
def isKindChar (c : Char) : Bool := isWord c || c == '-'

/-- The text before the first `]` of the line and what follows that bracket. -/
def untilBracket? (s : List Char) : Option (List Char × List Char) :=
  let front := s.takeWhile fun c => c != ']' && c != '\n'
  match s.drop front.length with
  | ']' :: rest => some (front, rest)
  | _ => none

/-- The metadata and what follows the closing bracket. Metadata has at least one character, so it
is looked for past a bracket that stands first, and is absent if the line has no later bracket. -/
def splitMetadata? (s : List Char) : Option (Option (List Char) × List Char) :=
  match s with
  | [] => none
  | c :: r =>
    match if c == '\n' then none else untilBracket? r with
    | some (m, rest) => some (some (c :: m), rest)
    | none => if c == ']' then some (none, r) else none

/-- The fold mark that starts a text, and the rest. -/
def splitFold : List Char → Fold × List Char
  | '+' :: r => (.opened, r)
  | '-' :: r => (.closed, r)
  | r => (.fixed, r)

/-- The directive that opens a line. -/
def parseChars? (line : List Char) : Option Directive := do
  let r ← afterFront? ['[', '!'] line
  let kind := r.takeWhile isKindChar
  let r := r.dropWhile isKindChar
  if kind.isEmpty then none
  let r := if r.head? == some '|' then r.tail else r
  let (metadata, r) ← splitMetadata? r
  let (fold, r) := splitFold r
  return { kind := canonical (String.ofList kind)
           rawKind := String.ofList kind
           metadata := metadata.map String.ofList
           fold
           title := String.ofList (trim r) }

/-- The directive that opens a line. -/
def parse? (line : String) : Option Directive := parseChars? line.toList

/-- The title of a callout that gives none. -/
def defaultTitle (kind : String) : String :=
  String.ofList ((Slug.capitalize kind).toList.map fun c => if c == '-' then ' ' else c)

/-- The title block around the rendered title. -/
def titleMarkup (titleHtml : String) (collapsible : Bool) : String :=
  "<div class=\"callout-title\"><div class=\"callout-icon\"></div>"
    ++ "<div class=\"callout-title-inner\">"
    ++ titleHtml ++ "</div>"
    ++ (if collapsible then "<div class=\"fold-callout-icon\"></div>" else "") ++ "</div>"

/-- The classes of a callout. -/
def Directive.classes (d : Directive) : List String :=
  ["callout", d.kind] ++ (if d.collapsible then ["is-collapsible"] else [])
    ++ (if d.collapsed then ["is-collapsed"] else [])

/-- The attributes of a callout's block quote. -/
def Directive.attributes (d : Directive) : Record :=
  [(.str "class", .list (d.classes.map .str)),
   (.str "data-callout", .str d.kind),
   (.str "data-callout-fold", .bool d.collapsible),
   (.str "data-callout-metadata", match d.metadata with | some m => .str m | none => .null)]

/-- The directive as a value that a node's information can hold. -/
def Directive.toValue (d : Directive) : Value :=
  .record "CalloutDirective"
    [(.str "kind", .str d.kind), (.str "raw_kind", .str d.rawKind),
     (.str "metadata", match d.metadata with | some m => .str m | none => .null),
     (.str "fold", .str d.fold.mark), (.str "title", .str d.title)]

/-- The lines of a note's source that open a callout, as a pattern over the whole source. -/
def openingLine : Pattern :=
  [.lineStart, .one (· == '>'), .many (· == ' '), .one (· == '['), .one (· == '!'), .one isWord,
   .many isWord, .maybe (· == '|'), .few inLine, .one (· == ']'), .maybe fun c => c == '+' || c == '-',
   .many inLine, .lineEnd]

/-- The source of a note with a quoted line break after every line that opens a callout, which
parts the title from the body. -/
def normalize (source : String) : String :=
  String.ofList (openingLine.replace (· ++ ['\n', '>', ' ']) true source.toList)

end NoteMarkup.Callout
