import Mathlib.Algebra.Group.Nat.Defs
import NoteMarkup.Json.Quoted
import NoteMarkup.Json.Reader

/-! Reading back what is quoted. A character is quoted as one escape or two, which read as the units of
its surrogate form, and the units of a text join to the text again. -/

namespace NoteMarkup

namespace Text

theorem hexValue?_hexDigit {n : Nat} (h : n < 16) : hexValue? (hexDigit n) = some n := by
  have each : ∀ n < 16, hexValue? (hexDigit n) = some n := by decide
  exact each n h

theorem hexNumber?_concat (s : List Char) (c : Char) :
    hexNumber? (s ++ [c]) = do return (← hexNumber? s) * 16 + (← hexValue? c) := by
  rw [hexNumber?, List.foldl_append]
  rfl

/-- Hexadecimal digits of fixed width keep the number up to the powers beyond it. -/
theorem hexNumber?_hexFixed (width n : Nat) : hexNumber? (hexFixed width n) = some (n % 16 ^ width) := by
  induction width generalizing n with
  | zero =>
      rw [Nat.pow_zero, Nat.mod_one]
      rfl
  | succ width ih =>
      have digit : hexValue? (hexDigit (n % 16)) = some (n % 16) :=
        hexValue?_hexDigit (Nat.mod_lt n (by decide))
      have carried : n / 16 % 16 ^ width * 16 + n % 16 = n % 16 ^ (width + 1) := by
        rw [Nat.pow_succ', Nat.mod_mul]
        omega
      rw [hexFixed, hexNumber?_concat, ih, digit, ← carried]
      rfl

/-! ### Surrogates -/

/-- The units of a character: its number, or the halves of a pair. -/
def unitsOf (c : Char) : List Nat :=
  if c.toNat < 65536 then [c.toNat]
  else [55296 + (c.toNat - 65536) / 1024, 56320 + (c.toNat - 65536) % 1024]

theorem isHalf_toNat (c : Char) : isHighHalf c.toNat = false ∧ isLowHalf c.toNat = false := by
  have valid : c.toNat < 0xd800 ∨ 0xdfff < c.toNat ∧ c.toNat < 0x110000 := c.valid
  simp only [isHighHalf, isLowHalf, Bool.and_eq_false_iff, decide_eq_false_iff_not]
  omega

theorem joinHalves_cons {m : Nat} (h : isHighHalf m = false) (units : List Nat) :
    joinHalves (m :: units) = unitChar m :: joinHalves units := by
  cases units with
  | nil => rfl
  | cons n units => rw [joinHalves, h, Bool.false_and, if_neg Bool.false_ne_true]

theorem joinHalves_unitsOf (c : Char) (units : List Nat) :
    joinHalves (unitsOf c ++ units) = c :: joinHalves units := by
  have valid : c.toNat < 0xd800 ∨ 0xdfff < c.toNat ∧ c.toNat < 0x110000 := c.valid
  unfold unitsOf
  split
  · obtain ⟨high, low⟩ := isHalf_toNat c
    rw [List.singleton_append, joinHalves_cons high, unitChar, high, low, Char.ofNat_toNat]
    rfl
  · have high : isHighHalf (55296 + (c.toNat - 65536) / 1024) = true := by
      simp only [isHighHalf, Bool.and_eq_true, decide_eq_true_eq]
      omega
    have low : isLowHalf (56320 + (c.toNat - 65536) % 1024) = true := by
      simp only [isLowHalf, Bool.and_eq_true, decide_eq_true_eq]
      omega
    have whole : pairChar (55296 + (c.toNat - 65536) / 1024) (56320 + (c.toNat - 65536) % 1024) = c := by
      rw [pairChar, show 0x10000 + (55296 + (c.toNat - 65536) / 1024 - 0xd800) * 0x400 +
        (56320 + (c.toNat - 65536) % 1024 - 0xdc00) = c.toNat by omega, Char.ofNat_toNat]
    rw [List.cons_append, List.singleton_append, joinHalves, high, low, whole]
    rfl

theorem joinHalves_flatMap (s : List Char) : joinHalves (s.flatMap unitsOf) = s := by
  induction s with
  | nil => rfl
  | cons c s ih => rw [List.flatMap_cons, joinHalves_unitsOf, ih]

end Text

namespace Json

open Text

variable {c : Char} {rest : List Char}

/-- Puts units in front of those that were read. -/
def prepend (ns : List Nat) (read : Except LoadFault (List Nat × List Char)) :
    Except LoadFault (List Nat × List Char) :=
  read.map fun p => (ns ++ p.1, p.2)

theorem prepend_prepend (ms ns : List Nat) (read : Except LoadFault (List Nat × List Char)) :
    prepend ms (prepend ns read) = prepend (ms ++ ns) read := by
  cases read with
  | error f => rfl
  | ok p => exact congrArg (fun t => Except.ok (t, p.2)) (List.append_assoc ms ns p.1).symm

theorem units_unitEscape {n : Nat} (h : n < 65536) :
    units (unitEscape n ++ rest) = prepend [n] (units rest) := by
  have read := hexNumber?_hexFixed 4 n
  have whole : n % 16 ^ 4 = n := Nat.mod_eq_of_lt h
  rw [whole] at read
  change hexNumber? [hexDigit _, hexDigit _, hexDigit _, hexDigit _] = _ at read
  change units ('\\' :: 'u' :: hexDigit _ :: hexDigit _ :: hexDigit _ :: hexDigit _ :: rest) = _
  rw [units, read]
  rfl

theorem units_escaped {e : Char} (number : c ≠ 'u') (h : escaped? c = some e) :
    units ('\\' :: c :: rest) = prepend [e.toNat] (units rest) := by
  rw [units.eq_4 _ _ fun _ _ _ _ _ same _ => number same, h]
  rfl

theorem units_plain (quote : c ≠ '"') (backslash : c ≠ '\\') (visible : 32 ≤ c.toNat) :
    units (c :: rest) = prepend [c.toNat] (units rest) := by
  rw [units.eq_5 c rest quote (fun _ _ _ _ _ same _ => backslash same) (fun _ _ same _ => backslash same),
    if_neg (by omega)]
  rfl

/-- One quoted character reads as its units. -/
theorem units_quotedChar (c : Char) (rest : List Char) :
    units (quotedChar c ++ rest) = prepend (unitsOf c) (units rest) := by
  unfold quotedChar
  simp only [beq_iff_eq]
  split
  · next quote => rw [quote]; exact units_escaped (by decide) rfl
  split
  · next backslash => rw [backslash]; exact units_escaped (by decide) rfl
  split
  · next feed => rw [feed]; exact units_escaped (by decide) rfl
  split
  · next back => rw [back]; exact units_escaped (by decide) rfl
  split
  · next tab => rw [tab]; exact units_escaped (by decide) rfl
  split
  · next page => rw [page]; exact units_escaped (by decide) rfl
  split
  · next bell => rw [bell]; exact units_escaped (by decide) rfl
  next quote backslash _ _ _ _ _ =>
  split
  · next plain =>
      rw [Bool.and_eq_true, decide_eq_true_eq, decide_eq_true_eq] at plain
      rw [unitsOf, if_pos (by omega)]
      exact units_plain quote backslash plain.1
  split
  · next small =>
      rw [unitsOf, if_pos small]
      exact units_unitEscape small
  · next large =>
      have valid : c.toNat < 0xd800 ∨ 0xdfff < c.toNat ∧ c.toNat < 0x110000 := c.valid
      rw [List.append_assoc, units_unitEscape (by omega), units_unitEscape (by omega), prepend_prepend,
        unitsOf, if_neg large]
      rfl

theorem units_quoted (s rest : List Char) :
    units (s.flatMap quotedChar ++ '"' :: rest) = .ok (s.flatMap unitsOf, rest) := by
  induction s with
  | nil => rfl
  | cons c s ih =>
      rw [List.flatMap_cons, List.append_assoc, units_quotedChar, ih]
      rfl

theorem string_quoted (s rest : List Char) :
    string (s.flatMap quotedChar ++ '"' :: rest) = .ok (String.ofList s, rest) := by
  rw [string, units_quoted]
  exact congrArg (fun t => Except.ok (String.ofList t, rest)) (joinHalves_flatMap s)

/-- The literal for a text reads as the text, whatever characters it holds. -/
theorem load_quoted (s : String) : load (quoted s).toList = .ok (.str s) := by
  have read := string_quoted s.toList []
  rw [String.ofList_toList] at read
  have whole : (quoted s).toList = '"' :: (s.toList.flatMap quotedChar ++ ['"']) := by
    rw [quoted, String.toList_ofList, quotedChars, List.cons_append]
  have start : skipBlanks (quoted s).toList = '"' :: (s.toList.flatMap quotedChar ++ ['"']) := by
    rw [whole]
    rfl
  rw [load, start, value, read]
  rfl

end Json

end NoteMarkup
