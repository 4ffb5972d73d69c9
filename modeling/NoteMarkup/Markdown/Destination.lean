import NoteMarkup.Html.Unescape
import NoteMarkup.Markdown.Indent
import NoteMarkup.Markdown.Punctuation
import NoteMarkup.Text.Case
import NoteMarkup.Text.Percent

/-!
Where a link leads: labels, addresses and titles, and the definitions that give a label its address.
-/

namespace NoteMarkup.Markdown

open Text (isBlank)

/-- An address and a title, which is absent if it is empty. -/
structure Destination where
  url : String
  title : Option String
deriving Repr, DecidableEq, Inhabited

/-- The marks of an address that are kept as they are. -/
def urlMarks : List Char := ":/?#@!$&()*+,;=%".toList

/-- An address with its character references replaced, in percent encoding. -/
def Destination.urlOf (address : List Char) : String :=
  String.ofList (Text.percentEncode urlMarks (Html.unescapeChars address))

/-- The destination with an address, which may hold escapes, and a title. -/
def Destination.ofWritten (url : List Char) (title : Option (List Char)) : Destination where
  url := urlOf (unescapeMarks url)
  title := title.bind fun t => if t.isEmpty then none else some (String.ofList t)

/-- The name under which a label is defined: letter case and blanks between words do not count. -/
def labelKey (label : List Char) : List Char :=
  Text.upper (Text.lower (Text.joinWith [' '] (Text.words label)))

/-- Destinations by the keys of their labels; the first definition of a label counts. -/
abbrev Definitions := List (List Char × Destination)

/-- Adds a definition unless the label has one. -/
def Definitions.add (ds : Definitions) (key : List Char) (d : Destination) : Definitions :=
  if (ds.lookup key).isSome then ds else ds ++ [(key, d)]

/-- The label before a closing bracket, and the rest after it. A label holds no brackets but escaped
ones; `room` bounds its length, an escape counting as one. -/
def label? : (room : Nat) → List Char → Option (List Char × List Char)
  | _, ']' :: rest => some ([], rest)
  | 0, _ => none
  | n + 1, '\\' :: c :: rest =>
    if c == '\n' then none else (label? n rest).map fun p => ('\\' :: c :: p.1, p.2)
  | _ + 1, '[' :: _ => none
  | _ + 1, ['\\'] => none
  | n + 1, c :: rest => (label? n rest).map fun p => (c :: p.1, p.2)
  | _ + 1, [] => none

/-- The longest label. -/
def labelRoom : Nat := 999

/-- The blanks before an address: gaps with at most one line feed among them. -/
def skipToAddress (s : List Char) : List Char :=
  match s.dropWhile isGap with
  | '\n' :: rest => rest.dropWhile isGap
  | rest => rest

/-- An address up to the angle bracket that closes it, and the rest. It stands on one line and holds
no other angle bracket but an escaped one; `escaped` tells whether a backslash stands before. -/
def bracketedAddress? : (escaped : Bool) → List Char → Option (List Char × List Char)
  | _, [] => none
  | escaped, c :: cs =>
    let goOn (escaped : Bool) := (bracketedAddress? escaped cs).map fun p => (c :: p.1, p.2)
    if c == '\n' then none
    else if escaped then goOn false
    else if c == '>' then some ([], cs)
    else if c == '<' || c == '\x00' then none
    else goOn (c == '\\')

/-- A space or a control character. -/
def endsAddress (c : Char) : Bool := c.toNat ≤ 32 || c.toNat == 127

/-- How deep parentheses in an address nest. -/
def mostParentheses : Nat := 20

/-- An address without brackets, and the rest. Parentheses in it are balanced, escaped ones apart;
`depth` counts those that are open, and `escaped` tells whether a backslash stands before. -/
def bareAddress? : (depth : Nat) → (escaped : Bool) → List Char → Option (List Char × List Char)
  | d, _, [] => if d == 0 then some ([], []) else none
  | d, escaped, c :: cs =>
    let goOn (d : Nat) (escaped : Bool) :=
      (bareAddress? d escaped cs).map fun p => (c :: p.1, p.2)
    if escaped && isPunctuation c then goOn d false
    else if endsAddress c || (c == ')' && d == 0) then
      if d == 0 then some ([], c :: cs) else none
    else if c == '(' then if d < mostParentheses then goOn (d + 1) false else none
    else if c == ')' then goOn (d - 1) false
    else goOn d (c == '\\')

/-- The address of a link, and the rest. An address may be missing between parentheses only. -/
def address? (mayMiss : Bool) (s : List Char) : Option (List Char × List Char) :=
  match skipToAddress s with
  | '<' :: r => bracketedAddress? false r
  | r => (bareAddress? 0 false r).filter fun p => mayMiss || !p.1.isEmpty

/-- The length of a title that ends at the first character `stops` accepts, escaped ones apart. -/
def titleLength? (stops : Char → Bool) : List Char → Option Nat
  | [] => none
  | [c] => if stops c then some 0 else none
  | c :: d :: rest =>
    if stops c then some 0
    else if c == '\x00' then none
    else if c == '\\' && isPunctuation d then (titleLength? stops rest).map (· + 2)
    else (titleLength? stops (d :: rest)).map (· + 1)

/-- The length of a title that the last escaped mark ends, for lack of another. -/
def escapedLength? (stops : Char → Bool) (close : Char) : List Char → Option Nat
  | [] => none
  | [_] => none
  | c :: d :: rest =>
    if c == '\x00' || stops c then none
    else if c == '\\' && isPunctuation d then
      match escapedLength? stops close rest with
      | some n => some (n + 2)
      | none => if d == close then some 1 else none
    else (escapedLength? stops close (d :: rest)).map (· + 1)

/-- The mark that closes a title, by the one that opens it. -/
def titleEnd? (c : Char) : Option Char :=
  if c == '"' || c == '\'' then some c else if c == '(' then some ')' else none

/-- A title after blanks, and the rest. -/
def title? (s : List Char) : Option (List Char × List Char) :=
  let isSpace (c : Char) : Bool := isGap c || c == '\n'
  match s with
  | [] => none
  | c :: _ =>
    if !isSpace c then none
    else
      match s.dropWhile isSpace with
      | [] => none
      | q :: r =>
        (titleEnd? q).bind fun close =>
          let stops (c : Char) : Bool := c == close || c == q
          let plain := (titleLength? stops r).filter fun n => r[n]? == some close
          (plain <|> escapedLength? stops close r).map fun n =>
            (unescapeMarks (r.take n), r.drop (n + 1))

/-- The destination between the parentheses of an inline link, and the rest after them. -/
def inlineDestination? (s : List Char) : Option (Destination × List Char) :=
  match address? true s with
  | none => none
  | some (href, afterHref) =>
    let (title, rest) := match title? afterHref with
      | some (t, r) => (some t, r)
      | none => (none, afterHref)
    match rest.dropWhile isBlank with
    | ')' :: rest => some (Destination.ofWritten href title, rest)
    | _ => none

/-- The destination after the colon of a definition, and the text after the line that it ends. A
title that does not end its line is not part of the definition. -/
def definitionDestination? (s : List Char) : Option (Destination × List Char) :=
  match address? false s with
  | none => none
  | some (href, afterHref) =>
    let near := upToBlankLine afterHref.length 1 afterHref
    let withTitle := (title? near).bind fun p =>
      (restOfBlank? (afterHref.drop (near.length - p.2.length))).map fun rest => (p.1, rest)
    match withTitle with
    | some (t, rest) => some (Destination.ofWritten href (some t), rest)
    | none => (restOfBlank? afterHref).map fun rest => (Destination.ofWritten href none, rest)

end NoteMarkup.Markdown
