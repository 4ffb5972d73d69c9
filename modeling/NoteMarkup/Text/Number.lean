import NoteMarkup.Text.Blank
import NoteMarkup.Text.Digit

/-!
Numbers as written: a sign and digits of any script, with blanks around them. A zero and the letter
of the base may stand before the digits. A decimal integer has at most 4300 digits.
-/

namespace NoteMarkup.Text

/-- A blank that may stand around a number: the marks between fields and records may not. -/
def isNumberBlank (c : Char) : Bool := isBlank c && !(28 ≤ c.toNat && c.toNat ≤ 31)

/-- The text without the blanks around a number. -/
def trimNumber (s : List Char) : List Char :=
  ((s.dropWhile isNumberBlank).reverse.dropWhile isNumberBlank).reverse

/-- The digit between 0 and 9 that has the value of a digit of some script. -/
def plainDigit (c : Char) : Char := if isDigit c then Char.ofNat (48 + digitValue c) else c

/-- The value of a digit or a letter in a number. -/
def placeValue? (c : Char) : Option Nat :=
  if isDigit c then some (digitValue c)
  else if 'a' ≤ c ∧ c ≤ 'z' then some (c.toNat - 87)
  else if 'A' ≤ c ∧ c ≤ 'Z' then some (c.toNat - 55)
  else none

/-- The number with digits of a base; at least one digit is needed. -/
def naturalInBase? (base : Nat) (s : List Char) : Option Nat :=
  if s.isEmpty then none
  else s.foldl (fun n c => do
    let n ← n
    let v ← placeValue? c
    if v < base then some (n * base + v) else none) (some 0)

/-- The letter that marks the digits of a base. -/
def baseMark? (base : Nat) : Option Char := [(2, 'b'), (8, 'o'), (16, 'x')].lookup base

/-- The digits of a base without a zero and the letter of the base before them. -/
def dropBaseMark (base : Nat) (s : List Char) : List Char :=
  match s with
  | '0' :: c :: r => if baseMark? base == some c.toLower then r else s
  | _ => s

/-- The integer with a sign, if it has one, and digits of a base. -/
def integerInBase? (base : Nat) (s : List Char) : Option Int :=
  let natural (r : List Char) : Option Nat := naturalInBase? base (dropBaseMark base r)
  match trimNumber s with
  | '-' :: r => (natural r).map fun n => -(n : Int)
  | '+' :: r => (natural r).map Int.ofNat
  | r => (natural r).map Int.ofNat

/-- The most digits of a decimal integer. -/
def mostDigits : Nat := 4300

/-- What is wrong with a decimal integer of so many digits, if they are too many. -/
def lengthProblem? (digits : Nat) : Option String :=
  if digits ≤ mostDigits then none
  else
    some ("Exceeds the limit (" ++ toString mostDigits ++ " digits) for integer string conversion: "
      ++ "value has " ++ toString digits
      ++ " digits; use sys.set_int_max_str_digits() to increase the limit")

end NoteMarkup.Text
