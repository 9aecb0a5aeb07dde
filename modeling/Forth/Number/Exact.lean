/-!
# Exact arithmetic on machine integers

The integers of the language are the 64 bit ones, but its arithmetic is that
of the integers: an operation is carried out in `Int`, and `narrow?` gives
the result back if it fits.  Division comes from the one that rounds toward
zero, which can fail, with a correction in machine integers where that one
has rounded up.

Main statement: `narrow?_eq_some_iff` says that narrowing succeeds exactly
on the integers that a machine integer stands for.
-/

namespace Forth.Exact

/-- The machine integer that stands for an integer, if there is one. -/
def narrow? (n : Int) : Option Int64 :=
  if Int64.minValue.toInt ≤ n ∧ n ≤ Int64.maxValue.toInt then
    some (Int64.ofInt n)
  else none

/-- The exact sum. -/
def add? (a b : Int64) : Option Int64 := narrow? (a.toInt + b.toInt)

/-- The exact difference. -/
def sub? (a b : Int64) : Option Int64 := narrow? (a.toInt - b.toInt)

/-- The exact product. -/
def mul? (a b : Int64) : Option Int64 := narrow? (a.toInt * b.toInt)

/-- The quotient rounded toward zero; there is none by zero. -/
def quotient? (a b : Int64) : Option Int64 :=
  if b = 0 then none else narrow? (a.toInt.tdiv b.toInt)

/-- What the quotient rounded toward zero leaves over.  There is no rest
without a quotient. -/
def remainder? (a b : Int64) : Option Int64 :=
  (quotient? a b).map fun _ => a % b

/-- Whether rounding toward zero was rounding up: something is left over, and
just one of two integers is negative. -/
def roundsUp (rest a b : Int64) : Bool :=
  rest != 0 && (decide (a < 0) != decide (b < 0))

/-- The quotient rounded down; there is none by zero. -/
def floorDiv? (a b : Int64) : Option Int64 :=
  (quotient? a b).map fun q => if roundsUp (a % b) a b then q - 1 else q

/-- What the quotient rounded down leaves over, which has the sign of the
divisor; there is no rest without a quotient. -/
def floorMod? (a b : Int64) : Option Int64 :=
  (remainder? a b).map fun r => if roundsUp r r b then r + b else r

/-- Whether an amount is one that the bits of a machine integer can be
shifted by. -/
def isShift (amount : Int64) : Bool :=
  0 ≤ amount.toInt && amount.toInt < 64

/-- Shift to the left, dropping the bits that leave. -/
def shiftLeft? (a amount : Int64) : Option Int64 :=
  if isShift amount then some (a <<< amount) else none

/-- Shift to the right, repeating the sign. -/
def shiftRight? (a amount : Int64) : Option Int64 :=
  if isShift amount then some (a >>> amount) else none

/-- Narrowing keeps the integer, and fails only where it can not. -/
theorem narrow?_eq_some_iff {n : Int} {k : Int64} :
    narrow? n = some k ↔ k.toInt = n := by
  unfold narrow?
  constructor
  · intro h
    split at h
    · next hn =>
      cases h
      have hlow : -9223372036854775808 ≤ n := hn.1
      have hhigh : n ≤ 9223372036854775807 := hn.2
      exact Int64.toInt_ofInt_of_le hlow (by omega)
    · cases h
  · rintro rfl
    rw [if_pos ⟨Int64.minValue_le_toInt k, Int64.toInt_le k⟩,
      Int64.ofInt_toInt]

end Forth.Exact
