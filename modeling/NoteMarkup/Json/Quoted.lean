import NoteMarkup.Text.Hex

/-!
Texts as string literals of JSON in ASCII. Quotes, backslashes and controls are escaped, and so is
every character outside ASCII: by the number of its UTF-16 unit, or by the numbers of its two
surrogates.
-/

namespace NoteMarkup.Json

/-- An escape by number. -/
def unitEscape (n : Nat) : List Char := '\\' :: 'u' :: Text.hexFixed 4 n

/-- One character inside a literal. -/
def quotedChar (c : Char) : List Char :=
  if c == '"' then ['\\', '"']
  else if c == '\\' then ['\\', '\\']
  else if c == '\n' then ['\\', 'n']
  else if c == '\r' then ['\\', 'r']
  else if c == '\t' then ['\\', 't']
  else if c == '\x0c' then ['\\', 'f']
  else if c == '\x08' then ['\\', 'b']
  else if 32 ≤ c.toNat && c.toNat < 127 then [c]
  else if c.toNat < 65536 then unitEscape c.toNat
  else
    let v := c.toNat - 65536
    unitEscape (55296 + v / 1024) ++ unitEscape (56320 + v % 1024)

/-- The literal for a text. -/
def quotedChars (s : List Char) : List Char := '"' :: s.flatMap quotedChar ++ ['"']

/-- The literal for a text. -/
def quoted (s : String) : String := String.ofList (quotedChars s.toList)

end NoteMarkup.Json
