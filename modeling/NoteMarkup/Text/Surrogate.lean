/-!
Surrogates: pairs of numbers that stand for one character beyond the first 65,536. Formats that
write characters by number may write such a pair.
-/

namespace NoteMarkup.Text

/-- The first half of a pair. -/
def isHighHalf (n : Nat) : Bool := 0xd800 ≤ n && n < 0xdc00

/-- The second half of a pair. -/
def isLowHalf (n : Nat) : Bool := 0xdc00 ≤ n && n < 0xe000

/-- The character of a pair. -/
def pairChar (high low : Nat) : Char :=
  Char.ofNat (0x10000 + (high - 0xd800) * 0x400 + (low - 0xdc00))

/-- The character with a number. A half without the other one is shown as the replacement
character. -/
def unitChar (n : Nat) : Char :=
  if isHighHalf n || isLowHalf n then '\ufffd' else Char.ofNat n

/-- The characters of numbers among which pairs may be. -/
def joinHalves : List Nat → List Char
  | [] => []
  | m :: n :: r =>
    if isHighHalf m && isLowHalf n then pairChar m n :: joinHalves r
    else unitChar m :: joinHalves (n :: r)
  | [m] => [unitChar m]

end NoteMarkup.Text
