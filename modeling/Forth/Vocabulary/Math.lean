import Forth.Machine.Act
import Forth.Number.Exact

/-!
# What the words of arithmetic, logic, bits and comparison do

Arithmetic on two integers is exact or fails; if one of the numbers is a
float it is float arithmetic.  Logic takes any values for their truth.  Bits
are those of integers, and a truth value counts as one or zero.  Equality can
be asked of any two values, order only of values that have one.

The second operand is the one on top and is taken first.  A failing word has
taken its operands.
-/

namespace Forth.MathWord

open Act

variable {E : Embedding}

/-- Take two numbers and push the result of an operation on them. -/
def arithmetic (onInts : Int64 → Int64 → Option Int64)
    (onFloats : Float → Float → Float) : Act E Unit := do
  let b ← pop
  let a ← pop
  match a, b with
  | .int m, .int n =>
    match onInts m n with
    | some result => push (.int result)
    | none => fail "integer overflow"
  | a, b =>
    if Value.areNumbers a b then
      push (.float (onFloats a.toFloat b.toFloat))
    else
      fail ("can not do math with " ++ a.typeName ++ " and " ++ b.typeName)

/-- Whether a value is a string. -/
def isString : Value → Bool
  | .string _ => true
  | _ => false

/-- Add two numbers, or join two texts if one of them is a string. -/
def addition : Act E Unit := do
  let b ← peek 0
  let a ← peek 1
  if isString a || isString b then
    let _ ← pop
    let _ ← pop
    push (.string (a.text ++ b.text))
  else arithmetic Exact.add? (· + ·)

/-- Whether a value is a number that can not be divided by.  Integers are
tested as floats too. -/
def isZero (v : Value) : Bool := v.isNumber && v.toFloat == 0.0

/-- Divide two numbers; integers round down. -/
def division : Act E Unit := do
  let b ← pop
  if isZero b then fail "division by zero"
  else
    push b
    arithmetic Exact.floorDiv? (· / ·)

/-- Divide two integers, giving what is left over and the quotient. -/
def divisionWithRest : Act E Unit := do
  let b ← popInt
  let a ← popInt
  if b == 0 then fail "division by zero"
  else
    match Exact.floorDiv? a b, Exact.floorMod? a b with
    | some quotient, some rest =>
      push (.int rest)
      push (.int quotient)
    | _, _ => fail "integer overflow"

/-- Take two values for their truth and push another. -/
def logic (op : Bool → Bool → Bool) : Act E Unit := do
  let b ← popTruth
  let a ← popTruth
  push (.bool (op a b))

/-- Take two integers and push the result of an operation on their bits. -/
def bitwise (op : Int64 → Int64 → Option Int64) : Act E Unit := do
  let b ← popInt
  let a ← popInt
  match op a b with
  | some result => push (.int result)
  | none =>
    fail ("bit operation out of range for " ++ toString a.toInt ++ " and "
      ++ toString b.toInt)

/-- Take two values and push whether a test holds of them. -/
def equality (test : Value → Value → Bool) : Act E Unit := do
  let b ← pop
  let a ← pop
  push (.bool (test a b))

/-- Take two values that have an order and push whether it is as wanted. -/
def comparison (test : Ordering → Bool) : Act E Unit := do
  let b ← pop
  let a ← pop
  match a.order? b with
  | some o => push (.bool (test o))
  | none =>
    fail ("can not compare " ++ a.typeName ++ " " ++ a.text ++ " with "
      ++ b.typeName ++ " " ++ b.text)

/-- What a word of this family does. -/
def act : MathWord → Act E Unit
  | add => addition
  | sub => arithmetic Exact.sub? (· - ·)
  | mul => arithmetic Exact.mul? (· * ·)
  | div => division
  | divMod => divisionWithRest
  | and => logic fun a b => a && b
  | or => logic fun a b => a || b
  | not => do push (.bool (!(← popTruth)))
  | bitAnd => bitwise fun a b => some (a &&& b)
  | bitOr => bitwise fun a b => some (a ||| b)
  | bitXor => bitwise fun a b => some (a ^^^ b)
  | bitNot => do push (.int (~~~(← popInt)))
  | shiftLeft => bitwise Exact.shiftLeft?
  | shiftRight => bitwise Exact.shiftRight?
  | equal => equality Value.equal
  | different => equality fun a b => !a.equal b
  | less => comparison Ordering.isLT
  | lessEqual => comparison Ordering.isLE
  | greater => comparison Ordering.isGT
  | greaterEqual => comparison Ordering.isGE

end Forth.MathWord
