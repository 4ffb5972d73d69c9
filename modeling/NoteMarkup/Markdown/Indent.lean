import NoteMarkup.Text.Blank
import NoteMarkup.Text.Lines

/-!
Lines and their indentation. A line ends with a line feed; spaces and tabs are gaps. A tab counts as
the spaces up to the next stop, and only a tab near the start of a line is ever widened.
-/

namespace NoteMarkup.Markdown

/-- A space or a tab. -/
def isGap (c : Char) : Bool := c == ' ' || c == '\t'

/-- A character of a line that counts as blank. -/
def isLineBlank (c : Char) : Bool := c == ' ' || c == '\t' || c == '\x0b' || c == '\x0c'

/-- The first line, without its line feed, and the text after it. -/
def splitLine (s : List Char) : List Char × List Char :=
  (s.takeWhile (· != '\n'), (s.dropWhile (· != '\n')).drop 1)

/-- The first line with its line feed, if it has one. -/
def firstLine (s : List Char) : List Char :=
  if s.contains '\n' then s.takeWhile (· != '\n') ++ ['\n'] else s

/-- Whether a text starts with a blank line that ends. -/
def startsBlank (s : List Char) : Bool :=
  match s.dropWhile isLineBlank with
  | '\n' :: _ => true
  | _ => false

/-- The text without the blank lines at its start; `fuel` bounds their number. -/
def dropBlankLines : (fuel : Nat) → List Char → List Char
  | 0, s => s
  | n + 1, s => if startsBlank s then dropBlankLines n (splitLine s).2 else s

/-- The lines, each with its line feed, up to the first blank one after the first `skip` ones;
`fuel` bounds the number of lines. -/
def upToBlankLine : (fuel skip : Nat) → List Char → List Char
  | 0, _, s => s
  | _, _, [] => []
  | n + 1, 0, s => if startsBlank s then [] else firstLine s ++ upToBlankLine n 0 (splitLine s).2
  | n + 1, k + 1, s => firstLine s ++ upToBlankLine n k (splitLine s).2

/-- The number of spaces at the start of a line, if there are at most `most`, and the rest. -/
def unindent? (most : Nat) (line : List Char) : Option (Nat × List Char) :=
  let n := (line.takeWhile (· == ' ')).length
  if n ≤ most then some (n, line.drop n) else none

/-- The line without up to `most` spaces at its start. -/
def trimIndent (most : Nat) (line : List Char) : List Char :=
  line.drop (min most (line.takeWhile (· == ' ')).length)

/-- The lines of a text, each changed by `f`. -/
def mapLines (f : List Char → List Char) (s : List Char) : List Char :=
  Text.joinWith ['\n'] ((Text.splitAtChar '\n' s).map f)

/-- A tab after at most three spaces at the start of a line, written as spaces: `pad` gives their
number from the number of spaces before it. -/
def widenTab (pad : Nat → Nat) (line : List Char) : List Char :=
  match unindent? 3 line with
  | some (n, '\t' :: rest) => List.replicate (n + pad n) ' ' ++ rest
  | _ => line

/-- Widens the first tab of every line to the stop at `width`. -/
def tabToStop (width : Nat) (s : List Char) : List Char := mapLines (widenTab (width - ·)) s

/-- Widens the first tab of every line to four spaces. -/
def tabToFour (s : List Char) : List Char := mapLines (widenTab fun _ => 4) s

/-- A text with the spaces and tabs at its start written as spaces; the text starts at a column, and
stops are four columns apart. -/
def widenGaps (column : Nat) : List Char → List Char
  | ' ' :: rest => ' ' :: widenGaps (column + 1) rest
  | '\t' :: rest =>
    let width := 4 - column % 4
    List.replicate width ' ' ++ widenGaps (column + width) rest
  | rest => rest

/-- The text without the line feeds at both ends. -/
def stripFeeds (s : List Char) : List Char :=
  ((s.dropWhile (· == '\n')).reverse.dropWhile (· == '\n')).reverse

/-- The text without the gaps at its end. -/
def stripGapsRight (s : List Char) : List Char := (s.reverse.dropWhile isGap).reverse

/-- Whether nothing but gaps stands before the end of the line, and the text after the line. -/
def restOfBlank? (s : List Char) : Option (List Char) :=
  match s.dropWhile isGap with
  | '\n' :: rest => some rest
  | _ => none

end NoteMarkup.Markdown
