/-!
The shortest decimal of a binary float: the fewest digits that read back as the same float, and of
several decimals of that length the nearest one, the one with an even last digit on a tie.

A positive float is `m · 2^q`. A decimal reads back as it when it lies between the midpoints to the
two neighbouring floats; a midpoint itself counts if `m` is even. All tests are made on natural
numbers.
-/

namespace NoteMarkup.Decimal

/-- A decimal: digits times a power of ten. -/
structure Scaled where
  digits : Nat
  exponent : Int
deriving Repr, DecidableEq

/-- A positive binary float with the reals that read back as it: in units of `2^unit` the float is
`value`, the reals lie between `low` and `high`, and the ends belong to them if `closed`. -/
structure Interval where
  value : Nat
  low : Nat
  high : Nat
  closed : Bool
  unit : Int
deriving Repr, DecidableEq

/-- The interval of the float `m · 2^q`. The lower neighbour of a power of two is only half as far
away, unless `q` is the least exponent. -/
def Interval.ofFloat (m : Nat) (q : Int) (leastExponent : Bool) : Interval where
  value := 4 * m
  low := if m == Nat.pow 2 52 && !leastExponent then 4 * m - 1 else 4 * m - 2
  high := 4 * m + 2
  closed := m % 2 == 0
  unit := q - 2

/-- The two numbers whose quotient is `n · 2^unit / 10^exponent`. -/
def ratio (n : Nat) (unit exponent : Int) : Nat × Nat :=
  (n * Nat.pow 2 unit.toNat * Nat.pow 10 (-exponent).toNat,
    Nat.pow 2 (-unit).toNat * Nat.pow 10 exponent.toNat)

/-- Whether `d · 10^exponent` lies in the interval. -/
def Interval.contains (i : Interval) (d : Nat) (exponent : Int) : Bool :=
  let (low, den) := ratio i.low i.unit exponent
  let high := (ratio i.high i.unit exponent).1
  if i.closed then low ≤ d * den && d * den ≤ high else low < d * den && d * den < high

/-- The point of the grid of multiples of `10^exponent` in the interval that is nearest to the
float, if one of its two neighbours on the grid lies there. -/
def Interval.nearest? (i : Interval) (exponent : Int) : Option Scaled :=
  let (num, den) := ratio i.value i.unit exponent
  let below := num / den
  let rest := num % den
  let hitBelow := i.contains below exponent
  let hitAbove := i.contains (below + 1) exponent
  let up := 2 * rest > den || (2 * rest == den && below % 2 == 1)
  if hitBelow && hitAbove then some ⟨if up then below + 1 else below, exponent⟩
  else if hitBelow then some ⟨below, exponent⟩
  else if hitAbove then some ⟨below + 1, exponent⟩
  else none

/-- The number of decimal digits of a number. -/
def digitCount (n : Nat) : Nat := (Nat.toDigits 10 n).length

/-- The exponent of ten of the first digit of `n · 2^unit`. -/
def leadingExponent (n : Nat) (unit : Int) : Int :=
  let (num, den) := ratio n unit 0
  if num ≥ den then (digitCount (num / den) : Int) - 1
  else
    -- The quotient is below one: scale it up by enough zeros and take them off again.
    let zeros := digitCount den
    (digitCount (num * Nat.pow 10 zeros / den) : Int) - 1 - zeros

/-- The first hit on the grids of `count` digits and more; `fuel` bounds the number of grids. -/
def Interval.firstHit (i : Interval) (lead : Int) : (fuel count : Nat) → Scaled
  | 0, _ => ⟨0, 0⟩
  | fuel + 1, count =>
    match i.nearest? (lead + 1 - count) with
    | some d => d
    | none => i.firstHit lead fuel (count + 1)

/-- The shortest decimal of the float `m · 2^q`. Seventeen digits are always enough. -/
def shortest (m : Nat) (q : Int) (leastExponent : Bool) : Scaled :=
  let i := Interval.ofFloat m q leastExponent
  i.firstHit (leadingExponent i.value i.unit) 18 1

end NoteMarkup.Decimal
