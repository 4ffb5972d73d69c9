/-!
Octets written with sixty-four characters, six bits each. Characters outside the alphabet do not
count; two or three characters at the end need padding.
-/

namespace NoteMarkup.Text

/-- The six bits that a character of the alphabet stands for. -/
def sixBits? (c : Char) : Option Nat :=
  if 'A' ≤ c ∧ c ≤ 'Z' then some (c.toNat - 65)
  else if 'a' ≤ c ∧ c ≤ 'z' then some (c.toNat - 71)
  else if '0' ≤ c ∧ c ≤ '9' then some (c.toNat + 4)
  else if c == '+' then some 62
  else if c == '/' then some 63
  else none

/-- Reads on inside a group of four: `count` characters of it are read, `bits` is what they leave
over, and `pads` pads have been seen in a row. -/
def base64From (count bits pads : Nat) : List Char → Option (List UInt8)
  | [] => if count == 0 then some [] else none
  | c :: cs =>
    if c == '=' then
      if count ≥ 2 && count + pads + 1 ≥ 4 then some []
      else base64From count bits (if count ≥ 2 then pads + 1 else pads) cs
    else
      match sixBits? c with
      | none => base64From count bits pads cs
      | some v =>
        match count with
        | 0 => base64From 1 v 0 cs
        | 1 => (base64From 2 (v % 16) 0 cs).map ((bits * 4 + v / 16).toUInt8 :: ·)
        | 2 => (base64From 3 (v % 4) 0 cs).map ((bits * 16 + v / 4).toUInt8 :: ·)
        | _ => (base64From 0 0 0 cs).map ((bits * 64 + v).toUInt8 :: ·)

/-- The octets that a text stands for. -/
def base64? (s : List Char) : Option (List UInt8) := base64From 0 0 0 s

end NoteMarkup.Text
