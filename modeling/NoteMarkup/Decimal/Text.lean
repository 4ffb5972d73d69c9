import NoteMarkup.Decimal.Shortest

/-!
Decimal texts of floats, both ways. A float is written with its shortest digits: in plain notation
if the first digit stands for at least one ten-thousandth and less than ten to the sixteenth, else
with an exponent of two digits at least. Plain notation keeps one digit after the point.
-/

namespace NoteMarkup.Decimal

/-- The digits of a number without the zeros at its end. -/
def trimZeros (digits : List Char) : List Char :=
  (digits.reverse.dropWhile (· == '0')).reverse

/-- The layout of a decimal with the digits `digits`, whose first one stands for `10^lead`. -/
def layout (digits : List Char) (lead : Int) : List Char :=
  let zeros (n : Nat) : List Char := List.replicate n '0'
  if -4 ≤ lead && lead < 16 then
    if lead < 0 then ['0', '.'] ++ zeros (-lead - 1).toNat ++ digits
    else
      let whole := digits.take (lead.toNat + 1)
      let part := digits.drop (lead.toNat + 1)
      whole ++ zeros (lead.toNat + 1 - whole.length) ++ ['.'] ++
        (if part.isEmpty then ['0'] else part)
  else
    let power := Nat.toDigits 10 lead.natAbs
    let sign := if lead < 0 then '-' else '+'
    digits.take 1 ++ (if digits.length > 1 then '.' :: digits.drop 1 else []) ++ ['e', sign] ++
      zeros (2 - power.length) ++ power

/-- The text of a positive decimal. -/
def Scaled.text (d : Scaled) : List Char :=
  let digits := Nat.toDigits 10 d.digits
  layout (trimZeros digits) (d.exponent + digits.length - 1)

/-- The text of a float. -/
def floatText (x : Float) : String :=
  let bits := x.toBits.toNat
  let negative := bits ≥ Nat.pow 2 63
  let exponent : Nat := bits / Nat.pow 2 52 % Nat.pow 2 11
  let fraction : Nat := bits % Nat.pow 2 52
  let sign := if negative then "-" else ""
  if exponent == 2047 then if fraction == 0 then sign ++ "inf" else "nan"
  else if exponent == 0 && fraction == 0 then sign ++ "0.0"
  else
    let d :=
      if exponent == 0 then shortest fraction (-1074) true
      else shortest (Nat.pow 2 52 + fraction) ((exponent : Int) - 1075) (exponent == 1)
    sign ++ String.ofList d.text

/-- The integer that a float equals, if it equals one. -/
def floatInt? (x : Float) : Option Int :=
  let bits := x.toBits.toNat
  let exponent : Nat := bits / Nat.pow 2 52 % Nat.pow 2 11
  let fraction : Nat := bits % Nat.pow 2 52
  if exponent == 2047 then none
  else
    let m := if exponent == 0 then fraction else Nat.pow 2 52 + fraction
    let q : Int := (max exponent 1 : Nat) - 1075
    let scale := Nat.pow 2 (-q).toNat
    if m % scale != 0 then none
    else
      let n : Int := m / scale * Nat.pow 2 q.toNat
      some (if bits ≥ Nat.pow 2 63 then -n else n)

/-- The number that decimal digits denote. -/
def digitsValue (digits : List Char) : Nat := digits.foldl (fun n c => n * 10 + (c.toNat - 48)) 0

/-- The first six digits of a fraction as millionths. -/
def micros (fraction : List Char) : Nat :=
  let six := fraction.take 6
  digitsValue (six ++ List.replicate (6 - six.length) '0')

/-- The float nearest to `digits · 10^exponent`. An exponent far outside the range of floats gives
infinity or zero at once. -/
def nearestFloat (digits : Nat) (exponent : Int) : Float :=
  let lead := exponent + digitCount digits
  if digits == 0 then 0
  else if lead > 400 then 1.0 / 0.0
  else if lead < -400 then 0
  else if exponent < 0 then Float.ofScientific digits true exponent.natAbs
  else Float.ofScientific digits false exponent.natAbs

/-- A decimal number without sign: digits with at most one point, and perhaps an exponent. -/
def readUnsigned? (s : List Char) : Option Float :=
  let whole := s.takeWhile Char.isDigit
  let (part, r) := match s.dropWhile Char.isDigit with
    | '.' :: r => (r.takeWhile Char.isDigit, r.dropWhile Char.isDigit)
    | r => ([], r)
  if whole.isEmpty && part.isEmpty then none
  else
    let digits := digitsValue (whole ++ part)
    let scale (e : Int) : Float := nearestFloat digits (e - part.length)
    let power (negative : Bool) (e : List Char) : Option Float :=
      if e.isEmpty || !e.all Char.isDigit then none
      else some (scale (if negative then -(digitsValue e : Int) else digitsValue e))
    match r with
    | [] => some (scale 0)
    | c :: r =>
      if c == 'e' || c == 'E' then
        match r with
        | '-' :: e => power true e
        | '+' :: e => power false e
        | e => power false e
      else none

/-- The float that a decimal text denotes. -/
def readFloat? (s : List Char) : Option Float :=
  match s with
  | '-' :: r => (readUnsigned? r).map fun x => -x
  | '+' :: r => readUnsigned? r
  | r => readUnsigned? r

end NoteMarkup.Decimal
