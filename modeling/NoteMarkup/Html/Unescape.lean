import NoteMarkup.Html.Entities

/-!
Character references in a text and the characters that they stand for. A reference starts with `&`
and ends with `;`; what cannot be read as one is left as it is.
-/

namespace NoteMarkup.Html

/-- The characters that the numbers 128 to 159 stand for: a legacy code page fills this block. -/
def codePage : List Nat :=
  [0x20ac, 0x81, 0x201a, 0x192, 0x201e, 0x2026, 0x2020, 0x2021, 0x2c6, 0x2030, 0x160, 0x2039,
   0x152, 0x8d, 0x17d, 0x8f, 0x90, 0x2018, 0x2019, 0x201c, 0x201d, 0x2022, 0x2013, 0x2014, 0x2dc,
   0x2122, 0x161, 0x203a, 0x153, 0x9d, 0x17e, 0x178]

/-- A code point that no document may hold: a control character or a noncharacter. -/
def isForbiddenCode (n : Nat) : Bool :=
  (1 ≤ n && n ≤ 8) || n == 11 || (14 ≤ n && n ≤ 31) || (127 ≤ n && n ≤ 159) ||
  (0xfdd0 ≤ n && n ≤ 0xfdef) || (n % 0x10000 ≥ 0xfffe)

/-- What a numeric reference stands for. -/
def characterOf (n : Nat) : List Char :=
  match if 128 ≤ n then codePage[n - 128]? else none with
  | some code => [Char.ofNat code]
  | none =>
    if n == 0 || (0xd800 ≤ n && n ≤ 0xdfff) || n > 0x10ffff then ['\ufffd']
    else if isForbiddenCode n then []
    else [Char.ofNat n]

/-- The longest short name, of two characters at least, at the start of a text, and the rest. -/
def shortNameAt? (s : List Char) : Option (List Char × List Char) :=
  ((List.range s.length).reverse.filter (· ≥ 2)).findSome? fun n =>
    if shortEntities.contains (s.take n) then some (s.take n, s.drop n) else none

/-- What a named reference stands for, its marks apart. -/
def namedCharacters (name : List Char) : List Char :=
  match entity? name with
  | some cs => cs
  | none =>
    match shortNameAt? (name ++ [';']) with
    | some (short, rest) => (entity? short).getD [] ++ rest
    | none => '&' :: name ++ [';']

/-- A character of a name in a reference. -/
def isNameChar (c : Char) : Bool :=
  c != '\t' && c != '\n' && c != '\x0c' && c != ' ' && c != '<' && c != '&' && c != '#' && c != ';'

/-- The decimal number with these digits. -/
def decimalNumber (digits : List Char) : Nat :=
  digits.foldl (fun n c => n * 10 + (c.toNat - 48)) 0

/-- Reads a run of up to `limit` characters of a class that a semicolon ends. -/
def referenceBody? (p : Char → Bool) (limit : Nat) (s : List Char) :
    Option (List Char × List Char) :=
  match s.dropWhile p with
  | ';' :: rest =>
    let body := s.takeWhile p
    if body.isEmpty || body.length > limit then none else some (body, rest)
  | _ => none

/-- What the reference after a `&` stands for, and the rest of the text. -/
def reference? (s : List Char) : Option (List Char × List Char) :=
  match s with
  | '#' :: 'x' :: r | '#' :: 'X' :: r =>
    (referenceBody? (fun c => (Text.hexValue? c).isSome) r.length r).map fun p =>
      (characterOf ((Text.hexNumber? p.1).getD 0), p.2)
  | '#' :: r =>
    (referenceBody? Char.isDigit 7 r).map fun p => (characterOf (decimalNumber p.1), p.2)
  | r => (referenceBody? isNameChar 32 r).map fun p => (namedCharacters p.1, p.2)

/-- The text with every reference replaced, reading on after `skip` characters. -/
def unescapeFrom : (skip : Nat) → List Char → List Char
  | _, [] => []
  | n + 1, _ :: cs => unescapeFrom n cs
  | 0, c :: cs =>
    if c == '&' then
      match reference? cs with
      | some (found, rest) => found ++ unescapeFrom (cs.length - rest.length) cs
      | none => c :: unescapeFrom 0 cs
    else c :: unescapeFrom 0 cs

/-- The text with every character reference replaced by what it stands for. -/
def unescapeChars (s : List Char) : List Char := unescapeFrom 0 s

end NoteMarkup.Html
