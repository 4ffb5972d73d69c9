import NoteMarkup.Value

/-!
Options: one flag for each feature of the dialect. A flag has a field name and a second spelling
that configuration files may use. Every way to change options sets flags one after the other, so the
last setting of a flag wins.
-/

namespace NoteMarkup

/-- The features that can be switched. -/
inductive Flag where
  | comments
  | highlight
  | wikilinks
  | callouts
  | mermaid
  | parseTags
  | parseBlockReferences
  | enableInHtmlEmbed
  | enableYouTubeEmbed
  | enableTweetEmbed
  | enableVideoEmbed
  | enableCheckbox
  | enableObsidianUri
  | disableBrokenWikilinks
deriving Repr, DecidableEq, Inhabited

namespace Flag

/-- Every flag, in the order in which options are listed. -/
def all : List Flag :=
  [.comments, .highlight, .wikilinks, .callouts, .mermaid, .parseTags, .parseBlockReferences,
   .enableInHtmlEmbed, .enableYouTubeEmbed, .enableTweetEmbed, .enableVideoEmbed, .enableCheckbox,
   .enableObsidianUri, .disableBrokenWikilinks]

/-- The field name. -/
def name : Flag → String
  | .comments => "comments"
  | .highlight => "highlight"
  | .wikilinks => "wikilinks"
  | .callouts => "callouts"
  | .mermaid => "mermaid"
  | .parseTags => "parse_tags"
  | .parseBlockReferences => "parse_block_references"
  | .enableInHtmlEmbed => "enable_in_html_embed"
  | .enableYouTubeEmbed => "enable_youtube_embed"
  | .enableTweetEmbed => "enable_tweet_embed"
  | .enableVideoEmbed => "enable_video_embed"
  | .enableCheckbox => "enable_checkbox"
  | .enableObsidianUri => "enable_obsidian_uri"
  | .disableBrokenWikilinks => "disable_broken_wikilinks"

/-- The second spelling. -/
def camelName : Flag → String
  | .parseTags => "parseTags"
  | .parseBlockReferences => "parseBlockReferences"
  | .enableInHtmlEmbed => "enableInHtmlEmbed"
  | .enableYouTubeEmbed => "enableYouTubeEmbed"
  | .enableTweetEmbed => "enableTweetEmbed"
  | .enableVideoEmbed => "enableVideoEmbed"
  | .enableCheckbox => "enableCheckbox"
  | .enableObsidianUri => "enableObsidianUri"
  | .disableBrokenWikilinks => "disableBrokenWikilinks"
  | f => f.name

/-- Whether the feature is on unless it is switched. -/
def default : Flag → Bool
  | .enableInHtmlEmbed | .enableCheckbox | .disableBrokenWikilinks => false
  | _ => true

/-- The flag with a field name. -/
def ofName? (name : String) : Option Flag := all.find? fun f => f.name == name

/-- The flag that a key names in either spelling. -/
def ofKey? (key : String) : Option Flag := all.find? fun f => f.name == key || f.camelName == key

/-- The accepted keys, each with the field name that it sets. -/
def keys : List (String × String) :=
  all.flatMap fun f =>
    if f.camelName == f.name then [(f.name, f.name)] else [(f.name, f.name), (f.camelName, f.name)]

end Flag

/-- The setting of every flag. -/
structure Options where
  enabled : Flag → Bool

instance : Inhabited Options := ⟨⟨Flag.default⟩⟩

/-- Why flags cannot be set. -/
inductive OptionFault where
  /-- No flag is named by the key. -/
  | unknownKey (key : Value)
  /-- The value set for the key is not a truth value. -/
  | notBoolean (key : Value) (value : Value)
  /-- No flag has the field name. -/
  | unknownField (name : Value)
  /-- A new set of options has no such field. -/
  | unexpectedField (name : Value)
deriving Inhabited

/-- What a fault says. -/
def OptionFault.message : OptionFault → String
  | .unknownKey key => "Unknown option: " ++ key.text
  | .notBoolean key value =>
    "Option '" ++ key.text ++ "' must be a boolean, got " ++ value.typeName
  | .unknownField name => "ObsidianOptions has no option '" ++ name.text ++ "'"
  | .unexpectedField name => "unexpected option '" ++ name.text ++ "'"

/-- The key that a fault is about. -/
def OptionFault.parameter : OptionFault → Value
  | .unknownKey key | .notBoolean key _ | .unknownField key | .unexpectedField key => key

namespace Options

/-- The options of a program that sets none. -/
def defaults : Options := ⟨Flag.default⟩

/-- Sets one flag. -/
def set (o : Options) (f : Flag) (b : Bool) : Options :=
  ⟨fun g => if g = f then b else o.enabled g⟩

/-- Every flag and its setting, by field name. -/
def toRecord (o : Options) : Record :=
  Flag.all.map fun f => (.str f.name, .bool (o.enabled f))

/-- The flag and the setting that one entry of a configuration gives. -/
def setting (e : Value × Value) : Except OptionFault (Flag × Bool) :=
  match e.1 with
  | .str key =>
    match Flag.ofKey? key with
    | none => .error (.unknownKey e.1)
    | some f =>
      match e.2 with
      | .bool b => .ok (f, b)
      | v => .error (.notBoolean e.1 v)
  | _ => .error (.unknownKey e.1)

/-- Sets flags in order. -/
def apply (o : Options) (settings : List (Flag × Bool)) : Options :=
  settings.foldl (fun o s => o.set s.1 s.2) o

/-- The options of a configuration, on top of `base`. -/
def ofRecord (values : Record) (base : Options) : Except OptionFault Options := do
  return base.apply (← values.mapM setting)

/-- The first flag whose new value is not a truth value, in the order of the flags. -/
def checkFields (values : Record) : Except OptionFault (List (Flag × Bool)) :=
  (Flag.all.filterMap fun f => (Record.get? values (.str f.name)).map (f, ·)).mapM fun
    | (f, .bool b) => .ok (f, b)
    | (f, v) => .error (.notBoolean (.str f.name) v)

/-- The flag that a key names as a field. -/
def field? : Value → Option Flag
  | .str name => Flag.ofName? name
  | _ => none

/-- Options with the fields of `values` replaced. -/
def update (o : Options) (values : Record) : Except OptionFault Options := do
  match values.find? fun e => (field? e.1).isNone with
  | some e => throw (.unknownField e.1)
  | none => return o.apply (← checkFields values)

/-- New options from fields. -/
def construct (values : Record) : Except OptionFault Options := do
  match values.find? fun e => (field? e.1).isNone with
  | some e => throw (.unexpectedField e.1)
  | none => return defaults.apply (← checkFields values)

end Options

end NoteMarkup
