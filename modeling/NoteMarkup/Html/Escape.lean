/-!
Text inside markup. The five characters that markup gives a meaning to are written as references,
so that a text can stand between tags and between the quotes of an attribute value.
-/

namespace NoteMarkup.Html

/-- One character of a text, as markup writes it. -/
def escapeChar (c : Char) : List Char :=
  if c == '&' then ['&', 'a', 'm', 'p', ';']
  else if c == '<' then ['&', 'l', 't', ';']
  else if c == '>' then ['&', 'g', 't', ';']
  else if c == '"' then ['&', 'q', 'u', 'o', 't', ';']
  else if c == '\'' then ['&', '#', 'x', '2', '7', ';']
  else [c]

/-- A text as markup writes it. -/
def escapeChars (s : List Char) : List Char := s.flatMap escapeChar

/-- A text as markup writes it. -/
def escape (s : String) : String := String.ofList (escapeChars s.toList)

end NoteMarkup.Html
