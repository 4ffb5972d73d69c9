import NoteMarkup.LoadFault
import NoteMarkup.Node.Basic
import NoteMarkup.Text.Utf8

/-!
Failures that no part of the library reports under a name of its own: information of the wrong
shape, a node where another kind is needed, data that denote no value.
-/

namespace NoteMarkup

/-- A failure inside an operation. -/
inductive Fault where
  /-- A value of a type that the operation cannot use. -/
  | wrongType (use : String) (found : String)
  /-- A node that lacks the part that the operation needs. -/
  | missingPart (part : String) (kind : Kind)
  /-- An item of a list that is to be read as a map does not have two parts. -/
  | notPair (index length : Nat)
  /-- A heading outside the six levels. -/
  | headingLevel (level : Int)
  /-- A table with a child that is no row. -/
  | tableChild (kind : Kind)
  /-- A map without the entry that the operation needs. -/
  | noEntry (key : String)
  /-- A scalar of a data format that denotes no value. -/
  | scalar (f : ScalarFault)
  /-- Octets of a data format that are no text. -/
  | undecodable (f : Text.Utf8Fault)
  /-- A path that the system does not follow, or a file that it cannot read. -/
  | unreadable (path cause : String)
  /-- A path with a zero character in it. -/
  | unnameable
  /-- A collection that holds itself. -/
  | circular
  /-- A value that lacks what the operation looks for in it. -/
  | lacking (part : String) (found : String)
  /-- As many values were to be taken, and none was there. -/
  | noneLeft (expected : Nat)
  /-- A stage gave up by itself. -/
  | raised (text : String)
deriving Repr, DecidableEq, Inhabited

/-- What a failure says. -/
def Fault.message : Fault → String
  | .wrongType use found => "cannot use a value of type " ++ found ++ " as " ++ use
  | .missingPart part kind => kind.name ++ " has no part " ++ part
  | .notPair index length =>
    "dictionary update sequence element #" ++ toString index ++ " has length " ++ toString length
      ++ "; 2 is required"
  | .headingLevel level => "Heading level must be 1-6, got " ++ toString level
  | .tableChild kind => "Table children must be TableRow instances, got " ++ kind.name
  | .noEntry key => key
  | .scalar f => f.message
  | .undecodable f => f.message
  | .unreadable path cause => path ++ ": " ++ cause
  | .unnameable => "embedded null byte"
  | .circular => "Circular reference detected"
  | .lacking part found => found ++ " has no " ++ part
  | .noneLeft expected =>
    "not enough values to unpack (expected " ++ toString expected ++ ", got 0)"
  | .raised text => text

end NoteMarkup
