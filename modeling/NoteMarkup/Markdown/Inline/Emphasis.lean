import NoteMarkup.Markdown.Inline.Basic
import NoteMarkup.Text.Blank
import NoteMarkup.Text.Word

/-!
Emphasis. A run of `*` or `_` can open a span if it faces the text after it, and close one if it
faces the text before it. A closing run pairs with the innermost run that can open its span; two
marks on both sides make it strong, one mark does not. Runs that lie between the two, and marks that
are left over, are text. Spans nest only so deep: a pair around deeper ones is text.
-/

namespace NoteMarkup.Markdown

open Text (isBlank isWord)

/-- A character that runs of emphasis consist of. -/
def isEmphasisMark (c : Char) : Bool := c == '*' || c == '_'

/-- A part of a text before emphasis is known. -/
inductive Piece where
  /-- Characters that no rule has recognized, in reverse. -/
  | plain (text : List Char)
  | marks (mark : Char) (count : Nat)
  | item (i : Inline)
deriving Inhabited

namespace Piece

/-- Adds a character to the parts before it, which stand in reverse. Equal marks make one run. -/
def addChar (ps : List Piece) (c : Char) : List Piece :=
  if isEmphasisMark c then
    match ps with
    | .marks m n :: rest => if m == c then .marks m (n + 1) :: rest else .marks c 1 :: ps
    | _ => .marks c 1 :: ps
  else
    match ps with
    | .plain text :: rest => .plain (c :: text) :: rest
    | _ => .plain [c] :: ps

/-- Adds characters to the parts before them. -/
def addText (ps : List Piece) (text : List Char) : List Piece := text.foldl addChar ps

end Piece

/-- What stands beside a run of marks. -/
inductive Beside where
  | blank
  | letter
  | symbol
deriving Repr, DecidableEq

namespace Beside

/-- How a character counts: what is no blank, no letter and no number is a symbol. -/
def ofChar (c : Char) : Beside :=
  if isBlank c then .blank else if isWord c && c != '_' then .letter else .symbol

/-- How a character counts, or the end of the text in its place. -/
def ofChar? (c? : Option Char) : Beside := (c?.map ofChar).getD .blank

/-- How an item counts: a break is blank, and any other item is a symbol. -/
def ofInline : Inline → Beside
  | .softBreak | .lineBreak => .blank
  | _ => .symbol

/-- How the start of a part counts. -/
def ofStart : Piece → Beside
  | .plain text => ofChar? text.getLast?
  | .marks _ _ => .symbol
  | .item i => ofInline i

/-- How the end of a part counts. -/
def ofEnd : Piece → Beside
  | .plain text => ofChar? text.head?
  | .marks _ _ => .symbol
  | .item i => ofInline i

/-- Whether a run faces the text on the side of `inner`, where `outer` stands on the other side: the
run touches no blank there, and a symbol only if no letter stands on the other side. -/
def faces (inner outer : Beside) : Bool :=
  inner != .blank && (inner != .symbol || outer != .letter)

end Beside

/-- A run of emphasis marks: its number among the parts, how many marks are left of it, its length
in the text, and whether it can open and close spans. -/
structure Run where
  place : Nat
  mark : Char
  count : Nat
  length : Nat
  opens : Bool
  closes : Bool
deriving Repr, DecidableEq

namespace Run

/-- The run of `n` marks between what stands before and after it. Underscores inside a word neither
open nor close. -/
def between (before after : Beside) (place : Nat) (mark : Char) (n : Nat) : Run :=
  let left := Beside.faces after before
  let right := Beside.faces before after
  if mark == '_' then
    ⟨place, mark, n, n, left && (!right || before == .symbol),
      right && (!left || after == .symbol)⟩
  else ⟨place, mark, n, n, left, right⟩

/-- Whether the run opens the span that `c` closes. If one of them could do both, their lengths must
not add up to a multiple of three, unless each length is one. -/
def pairsWith (o c : Run) : Bool :=
  o.mark == c.mark && o.opens &&
    (!(o.closes || c.opens) || (o.length + c.length) % 3 != 0 ||
      (o.length % 3 == 0 && c.length % 3 == 0))

/-- The marks that are left, as text. -/
def text (r : Run) : Inline := .text (List.replicate r.count r.mark)

end Run

/-- A part of a text whose runs are known. -/
inductive Part where
  | item (i : Inline)
  | run (r : Run)
deriving Inhabited

namespace Part

/-- A part that takes part in no span. -/
def inline : Part → Inline
  | .item i => i
  | .run r => r.text

/-- A run after `used` of its marks have been used up. One that has no mark left is an empty
text. -/
def after (r : Run) (used : Nat) : Part :=
  if r.count ≤ used then .item (.text []) else .run { r with count := r.count - used }

/-- The parts of a text, numbered from `place` on, after what stands before them. -/
def ofPieces (before : Beside) (place : Nat) : List Piece → List Part
  | [] => []
  | p :: ps =>
    let part : Part := match p with
      | .plain text => .item (.text text.reverse)
      | .marks m n =>
        .run (.between before ((ps.head?.map Beside.ofStart).getD .blank) place m n)
      | .item i => .item i
    part :: ofPieces (.ofEnd p) (place + 1) ps

/-- The steps that joining parts can take at most. -/
def steps : List Part → Nat
  | [] => 0
  | .item _ :: ps => steps ps + 1
  | .run r :: ps => steps ps + 2 * r.count + 1

end Part

/-- What a closing run looks for. -/
structure Wanted where
  mark : Char
  opens : Bool
  third : Nat
deriving Repr, DecidableEq

/-- What a run looks for: the number of marks that are left counts modulo three. -/
def Run.wanted (c : Run) : Wanted := ⟨c.mark, c.opens, c.count % 3⟩

namespace Part

/-- The innermost run that pairs with a closing run among the parts before it, which stand in
reverse, with the parts inside and those outside. Runs before the place `least` do not count. -/
def opener? (c : Run) (least : Nat) : List Part → Option (List Part × Run × List Part)
  | [] => none
  | .item i :: ps => (opener? c least ps).map fun p => (.item i :: p.1, p.2)
  | .run o :: ps =>
    if o.place < least then none
    else if o.pairsWith c then some ([], o, ps)
    else (opener? c least ps).map fun p => (.run o :: p.1, p.2)

/-- Joins a closing run to the run that opens its span: the parts outside, in reverse, and what
stands in place of the rest. A span nests at most `room` deep. -/
def close? (room : Nat) (c : Run) (least : Nat) (before : List Part) :
    Option (List Part × List Part) :=
  (opener? c least before).bind fun (inside, o, outside) =>
    let content := inside.reverse.map inline
    let used := if 2 ≤ o.count && 2 ≤ c.count then 2 else 1
    let span := Inline.span (if used == 2 then .strong else .emphasis) content
    if span.depth ≤ room then some (outside, [after o used, .item span, after c used]) else none

/-- Joins runs into spans. `before` holds the parts that have been looked at, in reverse. After a
span is joined, what is left of its first run is looked at again. `searched` tells for what closing
runs have looked in vain, and at which place the last one did: later ones do not look farther
back. -/
def join (room : Nat) : (fuel : Nat) → (searched : List (Wanted × Nat)) → (before : List Part) →
    List Part → List Part
  | 0, _, before, ps => before.reverse ++ ps
  | _, _, before, [] => before.reverse
  | fuel + 1, searched, before, .item i :: ps => join room fuel searched (.item i :: before) ps
  | fuel + 1, searched, before, .run c :: ps =>
    if !c.closes then join room fuel searched (.run c :: before) ps
    else
      match close? room c ((searched.lookup c.wanted).getD 0) before with
      | some (outside, joined) => join room fuel searched outside (joined ++ ps)
      | none => join room fuel ((c.wanted, c.place) :: searched) (.run c :: before) ps

end Part

/-- The items of parts that stand in reverse. Runs that are used up count only inside spans. -/
def joinPieces (room : Nat) (pieces : List Piece) : List Inline :=
  let parts := Part.ofPieces .blank 0 pieces.reverse
  ((Part.join room (Part.steps parts) [] [] parts).map Part.inline).filter (!·.isEmptyText)

end NoteMarkup.Markdown
