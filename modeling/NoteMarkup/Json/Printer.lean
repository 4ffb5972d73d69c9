import NoteMarkup.Fault
import NoteMarkup.Json.Quoted
import NoteMarkup.Value

/-!
Values as JSON texts in ASCII, with every item and every entry on a line of its own. A value that
the format does not have is printed as the text that shows it; a key that the format cannot write
is a fault, and so is a collection that holds itself.
-/

namespace NoteMarkup.Json

/-- The blanks at the start of a line; `depth` is the number of values around it. -/
def indentation (depth : Nat) : String := String.ofList (List.replicate (2 * depth) ' ')

/-- A float. -/
def floatWord (text : String) : String :=
  if text == "nan" then "NaN"
  else if text == "inf" then "Infinity"
  else if text == "-inf" then "-Infinity"
  else text

/-- A key as a text. -/
def keyText : Value → Except Fault String
  | .str s => .ok s
  | .float t => .ok (floatWord t)
  | .bool b => .ok (if b then "true" else "false")
  | .null => .ok "null"
  | .int n => .ok (toString n)
  | v => .error (.wrongType "key" v.typeName)

/-- A list or an object from the texts of its parts. -/
def bracketed (opening closing : String) (depth : Nat) (parts : List String) : String :=
  if parts.isEmpty then opening ++ closing
  else
    let separator := ",\n" ++ indentation (depth + 1)
    opening ++ "\n" ++ indentation (depth + 1) ++ separator.intercalate parts
      ++ "\n" ++ indentation depth ++ closing

mutual

/-- The text of a value; `depth` is the number of values around it. -/
def printed (depth : Nat) : Value → Except Fault String
  | .null => .ok "null"
  | .bool b => .ok (if b then "true" else "false")
  | .int n => .ok (toString n)
  | .float t => .ok (floatWord t)
  | .str s => .ok (quoted s)
  | .list items => do return bracketed "[" "]" depth (← printedItems (depth + 1) items)
  | .pair a b => do
    return bracketed "[" "]" depth [← printed (depth + 1) a, ← printed (depth + 1) b]
  | .map entries => do
    return bracketed "\x7b" "\x7d" depth (← printedEntries (depth + 1) entries)
  | .enclosing _ => .error .circular
  | v => .ok (quoted v.text)

/-- The texts of the items of a list. -/
def printedItems (depth : Nat) : List Value → Except Fault (List String)
  | [] => .ok []
  | v :: vs => do
    let t ← printed depth v
    return t :: (← printedItems depth vs)

/-- The texts of the entries of an object. -/
def printedEntries (depth : Nat) : List (Value × Value) → Except Fault (List String)
  | [] => .ok []
  | (k, v) :: es => do
    let key ← keyText k
    let t ← printed depth v
    return (quoted key ++ ": " ++ t) :: (← printedEntries depth es)

end

/-- The text of a value. -/
def print (v : Value) : Except Fault String := printed 0 v

end NoteMarkup.Json
