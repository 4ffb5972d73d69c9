import NoteMarkup.Text.Hex

/-!
Texts from their octets. A character outside ASCII is a leading octet and one to three octets that
continue it; the range of the first of these leaves out surrogates and needless length.
-/

namespace NoteMarkup.Text

/-- What is wrong with octets that are no text. -/
inductive Utf8Problem where
  /-- No character starts with the octet. -/
  | start
  /-- An octet does not continue the character that has been started. -/
  | continuation
  /-- The octets end inside a character. -/
  | truncated
deriving Repr, DecidableEq, Inhabited

/-- Why octets are no text: the octet `lead` at the place `first` starts no character, where the
octets up to the place `past` have been taken for one. -/
structure Utf8Fault where
  lead : Nat
  first : Nat
  past : Nat
  problem : Utf8Problem
deriving Repr, DecidableEq, Inhabited

/-- What a fault says. -/
def Utf8Fault.message (f : Utf8Fault) : String :=
  let place :=
    if f.past == f.first + 1 then
      "byte 0x" ++ String.ofList (hexFixed 2 f.lead) ++ " in position " ++ toString f.first
    else "bytes in position " ++ toString f.first ++ "-" ++ toString (f.past - 1)
  let reason := match f.problem with
    | .start => "invalid start byte"
    | .continuation => "invalid continuation byte"
    | .truncated => "unexpected end of data"
  "'utf-8' codec can't decode " ++ place ++ ": " ++ reason

/-- The fault as it shows when the octets are read in chunks of `size`: places count from the start
of the chunk, or of the character that the chunks before have left open. -/
def Utf8Fault.inChunks (size : Nat) (f : Utf8Fault) : Utf8Fault :=
  let base := match f.problem with
    | .start => f.first / size * size
    | .continuation => min f.first (f.past / size * size)
    | .truncated => f.first
  { f with first := f.first - base, past := f.past - base }

/-- A character that has been started: `need` more octets, the next one between `low` and `high`,
and the bits that the octets before it give. -/
structure Pending where
  lead : Nat
  first : Nat
  need : Nat
  low : Nat
  high : Nat
  bits : Nat
deriving Repr, DecidableEq

/-- The character that the octet `n` at the place `first` starts. -/
def Pending.start? (first n : Nat) : Option Pending :=
  if n < 0xc2 then none
  else if n < 0xe0 then some ⟨n, first, 1, 0x80, 0xbf, n - 0xc0⟩
  else if n == 0xe0 then some ⟨n, first, 2, 0xa0, 0xbf, 0⟩
  else if n == 0xed then some ⟨n, first, 2, 0x80, 0x9f, 0xd⟩
  else if n < 0xf0 then some ⟨n, first, 2, 0x80, 0xbf, n - 0xe0⟩
  else if n == 0xf0 then some ⟨n, first, 3, 0x90, 0xbf, 0⟩
  else if n < 0xf4 then some ⟨n, first, 3, 0x80, 0xbf, n - 0xf0⟩
  else if n == 0xf4 then some ⟨n, first, 3, 0x80, 0x8f, 4⟩
  else none

/-- The characters from the place `place` on, after the octets of the character `p`. -/
def charsFrom (place : Nat) (p : Option Pending) : List UInt8 → Except Utf8Fault (List Char)
  | [] =>
    match p with
    | none => .ok []
    | some p => .error ⟨p.lead, p.first, place, .truncated⟩
  | octet :: rest =>
    let n := octet.toNat
    match p with
    | none =>
      if n < 128 then (charsFrom (place + 1) none rest).map (Char.ofNat n :: ·)
      else
        match Pending.start? place n with
        | none => .error ⟨n, place, place + 1, .start⟩
        | some p => charsFrom (place + 1) (some p) rest
    | some p =>
      if n < p.low || p.high < n then .error ⟨p.lead, p.first, place, .continuation⟩
      else
        let bits := p.bits * 64 + (n - 0x80)
        if p.need ≤ 1 then (charsFrom (place + 1) none rest).map (Char.ofNat bits :: ·)
        else charsFrom (place + 1) (some ⟨p.lead, p.first, p.need - 1, 0x80, 0xbf, bits⟩) rest

/-- The text that octets write. -/
def ofOctets (octets : List UInt8) : Except Utf8Fault (List Char) := charsFrom 0 none octets

end NoteMarkup.Text
