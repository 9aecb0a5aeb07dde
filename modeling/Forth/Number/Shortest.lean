/-!
# The shortest decimal of a double

A finite double stands for an interval of reals: those that are nearer to it
than to any other double.  Its shortest decimal is the one in that interval
with the fewest digits, and of two with equally many the nearer one.

The search is in whole numbers.  With one digit, then two, and so on up to
seventeen, which always suffice, it tries the two neighbours of the value on
the grid of decimals with that many digits: if the interval holds any point
of a grid, it holds one of these two.
-/

namespace Forth.Shortest

/-- A positive number with the interval of reals that round to it, all in
units of two to the `exponent`.  The ends belong to the interval if it is
`closed`. -/
structure Interval where
  low : Nat
  value : Nat
  high : Nat
  closed : Bool
  exponent : Int
deriving DecidableEq, Repr

/-- The interval of a finite double other than zero, by its fraction and
exponent bits.  In units of a quarter of the last place the neighbours meet
two units above and two below, or one below where the places halve. -/
def Interval.ofBits (fraction exponent : Nat) : Interval :=
  let mantissa := if exponent = 0 then fraction else 0x10000000000000 + fraction
  let gap := if fraction = 0 ∧ 1 < exponent then 1 else 2
  { low := 4 * mantissa - gap
    value := 4 * mantissa
    high := 4 * mantissa + 2
    closed := mantissa % 2 == 0
    exponent := (max exponent 1 : Nat) - 1077 }

/-- A decimal as a whole number times a power of ten. -/
structure Decimal where
  digits : Nat
  exponent : Int
deriving DecidableEq, Repr

/-- The least `j` counted from `tried` with `den ≤ num * 10 ^ j`, looked for
at most `fuel` times. -/
def leadingZeros (den : Nat) : Nat → Nat → Nat → Nat
  | 0, tried, _ => tried
  | fuel + 1, tried, num =>
    if den ≤ num then tried else leadingZeros den fuel (tried + 1) (10 * num)

/-- The number of digits before the decimal point of `num / den`; zero and
less count the zeros after it. -/
def magnitude (num den : Nat) : Int :=
  if den ≤ num then (Nat.toDigits 10 (num / den)).length
  else 1 - (leadingZeros den 400 0 num : Int)

/-- Ten (or two) to an integer power, as numerator and denominator. -/
def power (base : Nat) (exponent : Int) : Nat × Nat :=
  (base.pow exponent.toNat, base.pow (-exponent).toNat)

namespace Interval

/-- Whether the point `n * p / q` lies in the interval. -/
def holds (i : Interval) (p q n : Nat) : Bool :=
  if i.closed then i.low * q ≤ n * p && n * p ≤ i.high * q
  else i.low * q < n * p && n * p < i.high * q

/-- The better of the value's two neighbours on the grid of multiples of
`p / q`, if the interval holds one.  Of two at the same distance it is the
upper. -/
def neighbour? (i : Interval) (p q : Nat) : Option Nat :=
  let below := i.value * q / p
  let above := below + 1
  match i.holds p q below, i.holds p q above with
  | false, false => none
  | true, false => some below
  | false, true => some above
  | true, true =>
    if i.value * q - below * p < above * p - i.value * q then some below
    else some above

/-- Try grids of `count`, `count + 1`, … digits, at most `fuel` of them. -/
def search (i : Interval) (size : Int) : Nat → Nat → Decimal
  | 0, count => ⟨0, size - count⟩
  | fuel + 1, count =>
    let (tens, tenths) := power 10 (size - count)
    let (twos, halves) := power 2 i.exponent
    match i.neighbour? (tens * halves) (tenths * twos) with
    | some n => ⟨n, size - count⟩
    | none => search i size fuel (count + 1)

/-- The shortest decimal in the interval. -/
def shortest (i : Interval) : Decimal :=
  let (twos, halves) := power 2 i.exponent
  i.search (magnitude (i.value * twos) halves) 17 1

end Interval

end Forth.Shortest
