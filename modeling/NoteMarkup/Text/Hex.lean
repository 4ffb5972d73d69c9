/-!
Numbers written with hexadecimal digits.
-/

namespace NoteMarkup.Text

/-- The lower-case hexadecimal digit of a number below sixteen. -/
def hexDigit (n : Nat) : Char :=
  if n < 10 then Char.ofNat (48 + n) else Char.ofNat (87 + n)

/-- The last `width` hexadecimal digits of a number. -/
def hexFixed : (width : Nat) → Nat → List Char
  | 0, _ => []
  | w + 1, n => hexFixed w (n / 16) ++ [hexDigit (n % 16)]

/-- The value of a hexadecimal digit of either case. -/
def hexValue? (c : Char) : Option Nat :=
  if '0' ≤ c ∧ c ≤ '9' then some (c.toNat - 48)
  else if 'a' ≤ c ∧ c ≤ 'f' then some (c.toNat - 87)
  else if 'A' ≤ c ∧ c ≤ 'F' then some (c.toNat - 55)
  else none

/-- The number that a text of hexadecimal digits denotes; the empty text denotes zero. -/
def hexNumber? (s : List Char) : Option Nat :=
  s.foldl (fun acc c => do return (← acc) * 16 + (← hexValue? c)) (some 0)

end NoteMarkup.Text
