/-!
Patterns over the lines of a text. A pattern is matched from left to right. Where it leaves a choice,
the choices are tried in turn, and the first after which the rest of the pattern matches is taken.
-/

namespace NoteMarkup.Text

/-- A part of a pattern: a place in a line, or characters of a class. A choice takes as many characters
as it can first, except for `few`, which takes as few as it can first. -/
inductive Pattern.Part where
  | lineStart
  | lineEnd
  | one (p : Char → Bool)
  | maybe (p : Char → Bool)
  | many (p : Char → Bool)
  | few (p : Char → Bool)

/-- A pattern, as its parts in order. -/
abbrev Pattern := List Pattern.Part

/-- A character that stands in a line. -/
def inLine (c : Char) : Bool := c != '\n'

/-- Whether a line starts after `w`, if `fresh` tells it of the place before `w`. -/
def freshAfter (fresh : Bool) (w : List Char) : Bool := (w.getLast?.map (· == '\n')).getD fresh

namespace Pattern

/-- The length of a match that starts with one character of a class. -/
def takeOne (p : Char → Bool) (next : Bool → List Char → Option Nat) : List Char → Option Nat
  | [] => none
  | c :: cs => if p c then (next (c == '\n') cs).map (· + 1) else none

/-- The length of a match that starts with characters of a class, as many as `next` allows. -/
def takeMany (p : Char → Bool) (next : Bool → List Char → Option Nat) (fresh : Bool) :
    List Char → Option Nat
  | [] => next fresh []
  | c :: cs =>
    if p c then
      match takeMany p next (c == '\n') cs with
      | some n => some (n + 1)
      | none => next fresh (c :: cs)
    else next fresh (c :: cs)

/-- The length of a match that starts with characters of a class, as few as `next` allows. -/
def takeFew (p : Char → Bool) (next : Bool → List Char → Option Nat) (fresh : Bool) :
    List Char → Option Nat
  | [] => next fresh []
  | c :: cs =>
    match next fresh (c :: cs) with
    | some n => some n
    | none => if p c then (takeFew p next (c == '\n') cs).map (· + 1) else none

/-- The length of a match of a part and of what `next` matches after it. A place in a text is what
follows it and whether a line starts there. -/
def Part.run (next : Bool → List Char → Option Nat) (fresh : Bool) (s : List Char) : Part → Option Nat
  | lineStart => if fresh then next fresh s else none
  | lineEnd => if s.head?.all (· == '\n') then next fresh s else none
  | one p => takeOne p next s
  | maybe p =>
    match takeOne p next s with
    | some n => some n
    | none => next fresh s
  | many p => takeMany p next fresh s
  | few p => takeFew p next fresh s

/-- The length of the match of a pattern at a place. -/
def length? (fresh : Bool) (s : List Char) : Pattern → Option Nat
  | [] => some 0
  | part :: parts => part.run (fun fresh s => length? fresh s parts) fresh s

/-- The text with every match of the pattern replaced by what `f` gives for it. Matches do not overlap,
the leftmost comes first, and a match of no characters is passed over. -/
def replace (pattern : Pattern) (f : List Char → List Char) (fresh : Bool) (s : List Char) : List Char :=
  match s with
  | [] => []
  | c :: cs =>
    match pattern.length? fresh (c :: cs) with
    | some (n + 1) =>
      let found := c :: cs.take n
      f found ++ replace pattern f (freshAfter fresh found) (cs.drop n)
    | _ => c :: replace pattern f (c == '\n') cs
termination_by s.length
decreasing_by all_goals simp only [List.length_cons, List.length_drop]; omega

end Pattern

end NoteMarkup.Text
