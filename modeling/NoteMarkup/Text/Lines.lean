/-!
Lines of a text. A boundary is a line feed, a carriage return, the pair of both, or one of the
other separators that end a line.
-/

namespace NoteMarkup.Text

/-- A character that ends a line by itself. -/
def isLineEnd (c : Char) : Bool :=
  c == '\n' || c == '\r' || c == '\x0b' || c == '\x0c' || c == '\x1c' || c == '\x1d' ||
  c == '\x1e' || c == '\u0085' || c == '\u2028' || c == '\u2029'

/-- The lines after the characters `line` of the current one, which stand in reverse. -/
def linesFrom (line : List Char) : List Char → List (List Char)
  | [] => if line.isEmpty then [] else [line.reverse]
  | '\r' :: '\n' :: cs => ('\n' :: '\r' :: line).reverse :: linesFrom [] cs
  | c :: cs =>
    if isLineEnd c then (c :: line).reverse :: linesFrom [] cs else linesFrom (c :: line) cs

/-- The lines of a text, each with its boundary. -/
def lines (s : List Char) : List (List Char) := linesFrom [] s

/-- The text with a line feed for every carriage return and for every pair of both. -/
def normalizeLines : List Char → List Char
  | [] => []
  | '\r' :: '\n' :: cs => '\n' :: normalizeLines cs
  | c :: cs => (if c == '\r' then '\n' else c) :: normalizeLines cs

/-- A line without its boundary. -/
def chomp (line : List Char) : List Char := (line.reverse.dropWhile isLineEnd).reverse

/-- The end of a text, or the place before a line feed that ends it. -/
def atTextEnd : List Char → Bool
  | [] => true
  | ['\n'] => true
  | _ => false

/-- The parts of a text between the occurrences of a character. -/
def splitAtChar (sep : Char) : List Char → List (List Char)
  | [] => [[]]
  | c :: cs =>
    if c == sep then [] :: splitAtChar sep cs
    else match splitAtChar sep cs with
      | [] => [[c]]
      | part :: parts => (c :: part) :: parts

/-- The texts with `sep` between neighbours. -/
def joinWith (sep : List Char) : List (List Char) → List Char
  | [] => []
  | [s] => s
  | s :: ss => s ++ sep ++ joinWith sep ss

/-- The text before and after the first occurrence of a character, if it occurs. -/
def cutAt (sep : Char) (s : List Char) : Option (List Char × List Char) :=
  match s.dropWhile (· != sep) with
  | [] => none
  | _ :: rest => some (s.takeWhile (· != sep), rest)

/-- What follows `front` in a text that starts with it. -/
def afterFront? : (front : List Char) → List Char → Option (List Char)
  | [], s => some s
  | _ :: _, [] => none
  | f :: fs, c :: cs => if f == c then afterFront? fs cs else none

/-- Whether a text holds another one. -/
def holds (part : List Char) : (s : List Char) → Bool
  | [] => part.isEmpty
  | c :: cs => part.isPrefixOf (c :: cs) || holds part cs

end NoteMarkup.Text
