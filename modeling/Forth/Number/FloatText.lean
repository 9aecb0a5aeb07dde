import Forth.Number.Shortest

/-!
# How floats are written

A float is written with the digits of its shortest decimal, so that reading
the text gives the float back.  From a ten-thousandth up to ten to the
sixteenth it is written with a decimal point and at least one digit on each
side of it; outside of that range as one digit, a point if more follow, and
an exponent without a plus sign.  Zero keeps its sign and the missing number
has none.
-/

namespace Forth.FloatText

/-- The exponents of the leading digit for which a point is placed instead of
writing an exponent. -/
def isPositional (exponent : Int) : Bool :=
  -4 ≤ exponent && exponent < 16

/-- Remove trailing zeros from the digits of a number and count them. -/
def stripZeros : List Char → List Char × Nat
  | [] => ([], 0)
  | c :: cs =>
    match stripZeros cs with
    | ([], n) => if c = '0' then ([], n + 1) else ([c], n)
    | (ds, n) => (c :: ds, n)

/-- Zeros in a row. -/
def zeros (n : Nat) : List Char := List.replicate n '0'

/-- Place the point after the digit of the units, filling in zeros.
`exponent` is that of the leading digit. -/
def positional (digits : List Char) (exponent : Int) : List Char :=
  if exponent < 0 then
    '0' :: '.' :: (zeros (-exponent - 1).toNat ++ digits)
  else
    let count := exponent.toNat + 1
    let whole := digits.take count
    let part := digits.drop count
    whole ++ zeros (count - whole.length) ++ '.' ::
      (if part.isEmpty then ['0'] else part)

/-- One digit, the others after a point, and the exponent. -/
def scientific (digits : List Char) (exponent : Int) : List Char :=
  let part := digits.drop 1
  digits.take 1 ++ (if part.isEmpty then [] else '.' :: part)
    ++ 'e' :: (toString exponent).toList

/-- The text of a positive decimal. -/
def ofDecimal (d : Shortest.Decimal) : List Char :=
  let (digits, dropped) := stripZeros (Nat.toDigits 10 d.digits)
  let exponent := d.exponent + dropped + digits.length - 1
  if isPositional exponent then positional digits exponent
  else scientific digits exponent

/-- The text of a double without its sign, by its fraction and exponent
bits. -/
def ofBits (fraction exponent : Nat) : List Char :=
  if exponent = 0 ∧ fraction = 0 then ['0', '.', '0']
  else ofDecimal (Shortest.Interval.ofBits fraction exponent).shortest

end Forth.FloatText

namespace Forth

/-- The text of a float. -/
def floatText (x : Float) : String :=
  let bits := x.toBits
  let fraction := (bits &&& 0xfffffffffffff).toNat
  let exponent := (bits >>> 52 &&& 0x7ff).toNat
  let sign := if bits >>> 63 = 1 then ['-'] else []
  if exponent = 2047 then
    if fraction = 0 then String.ofList (sign ++ ['i', 'n', 'f']) else "NaN"
  else String.ofList (sign ++ FloatText.ofBits fraction exponent)

end Forth
