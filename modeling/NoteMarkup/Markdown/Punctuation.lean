/-!
Punctuation and backslash escapes. A backslash before a punctuation mark takes the mark literally;
before anything else it stands for itself.
-/

namespace NoteMarkup.Markdown

/-- The punctuation marks. -/
def isPunctuation (c : Char) : Bool :=
  let n := c.toNat
  (33 ≤ n && n ≤ 47) || (58 ≤ n && n ≤ 64) || (91 ≤ n && n ≤ 96) || (123 ≤ n && n ≤ 126)

/-- The text with every escaped mark in place of its escape. -/
def unescapeMarks : List Char → List Char
  | [] => []
  | [c] => [c]
  | c :: d :: rest =>
    if c == '\\' && isPunctuation d then d :: unescapeMarks rest else c :: unescapeMarks (d :: rest)

/-- The marks of the escapes at the start of a text, and the rest. -/
def escapeRun : List Char → List Char × List Char
  | c :: d :: rest =>
    if c == '\\' && isPunctuation d then
      let (marks, rest) := escapeRun rest
      (d :: marks, rest)
    else ([], c :: d :: rest)
  | s => ([], s)

end NoteMarkup.Markdown
