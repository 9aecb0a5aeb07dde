import Forth.Number.Exact

/-!
# Numerals

How numbers are written in a source.  An integer is an optional sign and
decimal digits, and has to fit a machine integer.  A float is an optional
sign and either a decimal fraction with an optional exponent, or one of the
names of infinity and of the missing number, in any letter case.

A decimal fraction is read exactly, as a natural number times a power of ten,
and rounded once.
-/

namespace Forth.Numeral

/-- The value of a row of decimal digits, if that is what it is. -/
def natural? (cs : List Char) : Option Nat :=
  if cs ≠ [] ∧ cs.all Char.isDigit then
    some (cs.foldl (fun n c => 10 * n + (c.toNat - '0'.toNat)) 0)
  else none

/-- Split off an optional sign; `true` stands for minus. -/
def splitSign : List Char → Bool × List Char
  | '-' :: cs => (true, cs)
  | '+' :: cs => (false, cs)
  | cs => (false, cs)

/-- The value of an optional sign and digits. -/
def signed? (cs : List Char) : Option Int :=
  let (negative, digits) := splitSign cs
  (natural? digits).map fun n => if negative then -(n : Int) else n

/-- The machine integer that a text writes. -/
def integer? (text : String) : Option Int64 :=
  (signed? text.toList).bind Exact.narrow?

/-- A number given as `digits` times ten to the `exponent`. -/
structure Decimal where
  digits : Nat
  exponent : Int
deriving DecidableEq, Repr

/-- Beyond this power of ten every double is infinite, and below its inverse
every double is zero. -/
def Decimal.reach : Int := 400

/-- The double nearest to a decimal. -/
def Decimal.toFloat (d : Decimal) : Float :=
  let size := d.exponent + (Nat.toDigits 10 d.digits).length
  if d.digits = 0 ∨ size < -Decimal.reach then 0.0
  else if Decimal.reach < size then 1.0 / 0.0
  else Float.ofScientific d.digits (d.exponent < 0) d.exponent.natAbs

/-- The exponent of ten that a fraction ends with, zero if it has none. -/
def exponent? : List Char → Option Int
  | [] => some 0
  | c :: cs => if c = 'e' ∨ c = 'E' then signed? cs else none

/-- Digits, an optional point with more digits, an optional exponent; there
has to be a digit on one side of the point. -/
def fraction? (cs : List Char) : Option Decimal :=
  let (whole, rest) := cs.span Char.isDigit
  let (part, rest) :=
    match rest with
    | '.' :: rest => rest.span Char.isDigit
    | rest => ([], rest)
  match natural? (whole ++ part), exponent? rest with
  | some digits, some exponent => some ⟨digits, exponent - part.length⟩
  | _, _ => none

/-- The named floats. -/
def named? (cs : List Char) : Option Float :=
  match String.ofList (cs.map Char.toLower) with
  | "inf" | "infinity" => some (1.0 / 0.0)
  | "nan" => some (0.0 / 0.0)
  | _ => none

/-- The float that a text writes. -/
def float? (text : String) : Option Float :=
  let (negative, cs) := splitSign text.toList
  let size := ((fraction? cs).map Decimal.toFloat).or (named? cs)
  size.map fun x => if negative then -x else x

end Forth.Numeral
