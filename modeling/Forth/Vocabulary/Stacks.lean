import Forth.Machine.Act

/-!
# What the stack words do

Values are moved between places of the data stack, and between the two
stacks.  A return address is not a value: the words that take values back
from the return stack leave it where it is and fail.
-/

namespace Forth.StackWord

open Act

variable {E : Embedding}

/-- Take back a parked value. -/
def takeParked : Act E Value := do
  match ← popFrame with
  | .value v => return v
  | .call c =>
    pushFrame (.call c)
    throw (.notExecutable ("return address " ++ c.text))

/-- Copy the value at the depth given on top. -/
def pickValue : Act E Unit := do
  let index ← popNat
  let count ← Act.depth
  if count ≤ index then
    fail ("index " ++ toString index ++ " out of range of stack size "
      ++ toString count)
  else push (← peek index)

/-- What a stack word does. -/
def act : StackWord → Act E Unit
  | dup => do push (← peek 0)
  | drop => do let _ ← pop
  | swap => do
    let b ← pop
    let a ← pop
    push b
    push a
  | second => do push (← peek 1)
  | rot => do
    let c ← pop
    let b ← pop
    let a ← pop
    push b
    push c
    push a
  | unrot => do
    let c ← pop
    let b ← pop
    let a ← pop
    push c
    push a
    push b
  | depth => do push (.ofNat (← Act.depth))
  | maxDepth => do push (.ofNat (← get).data.peak)
  | pick => pickValue
  | toReturn => do pushFrame (.value (← pop))
  | fromReturn => do push (← takeParked)
  | dropReturn => do
    push (← takeParked)
    let _ ← pop

end Forth.StackWord
