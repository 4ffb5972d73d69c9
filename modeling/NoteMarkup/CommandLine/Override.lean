import NoteMarkup.Text.Blank
import NoteMarkup.Text.Case
import NoteMarkup.Text.Lines

/-!
Overrides of option flags on the command line: a key, `=`, and a word for true or false.
-/

namespace NoteMarkup.CommandLine

/-- Why a text is no override. -/
inductive OverrideFault where
  | notPair (text : String)
  | notBoolean (key value : String)
deriving Repr, DecidableEq, Inhabited

/-- What a fault says. -/
def OverrideFault.message : OverrideFault → String
  | .notPair t => "Expected key=value, got '" ++ t ++ "'"
  | .notBoolean k v => "Option '" ++ k ++ "' expects true or false, got '" ++ v ++ "'"

/-- The truth value of a word. -/
def truth? (word : String) : Option Bool :=
  if ["true", "1", "yes", "on"].contains word then some true
  else if ["false", "0", "no", "off"].contains word then some false
  else none

/-- The key and the setting that a text overrides. -/
def parseOverride (text : String) : Except OverrideFault (String × Bool) :=
  match Text.cutAt '=' text.toList with
  | none => .error (.notPair text)
  | some (key, value) =>
    let key := Text.trim key
    if key.isEmpty then .error (.notPair text)
    else
      match truth? (String.ofList (Text.lower (Text.trim value))) with
      | some b => .ok (String.ofList key, b)
      | none => .error (.notBoolean (String.ofList key) (String.ofList value))

end NoteMarkup.CommandLine
