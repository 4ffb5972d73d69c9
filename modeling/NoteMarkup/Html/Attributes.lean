import NoteMarkup.Html.Escape
import NoteMarkup.Value

/-!
Attributes of an element. True stands as a bare name; false, an absent value and an empty list of
classes are left out; every other value stands between double quotes.
-/

namespace NoteMarkup.Html

/-- The text of an attribute value: the items of a list or a pair stand between spaces. -/
def attributeText : Value → String
  | .list items => " ".intercalate (items.map Value.text)
  | .pair a b => " ".intercalate [a.text, b.text]
  | v => v.text

/-- One attribute, after a space. -/
def formatAttribute (name value : Value) : String :=
  match value with
  | .null | .bool false | .list [] => ""
  | .bool true => " " ++ name.text
  | v => " " ++ name.text ++ "=\"" ++ escape (attributeText v) ++ "\""

/-- The attributes of a record, ready to follow the name of an element. -/
def attributes (attrs : Record) : String :=
  String.join (attrs.map fun a => formatAttribute a.1 a.2)

end NoteMarkup.Html
