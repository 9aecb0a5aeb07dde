import Forth.Machine.Act

/-!
# Runs

Programs need not end, so whatever can execute a word takes an allowance of
steps.  Running out of it is not a failure of the program: it is kept apart
from every fault, no word can notice it, and nothing recovers from it.  A
starved computation leaves the machine as it was when the allowance was used
up, in the middle of whatever it was doing; so with growing allowances one
sees the moments of a run one after the other.  A result that does not say
`starved` is the result for every larger allowance as well, which is proved in
`Forth.Engine.Allowance`.
-/

namespace Forth

/-- Why a computation stopped short: it failed, or its allowance was used
up. -/
inductive Halt (ε : Type) where
  | failed (error : ε)
  | starved
deriving DecidableEq, Repr

/-- The same end with the error in another form. -/
def Halt.map {ε δ : Type} (f : ε → δ) : Halt ε → Halt δ
  | failed e => failed (f e)
  | starved => starved

/-- A computation that can execute words, and fail with a fault. -/
abbrev Run (E : Embedding) := EStateM (Halt Fault) (Machine E)

/-- A computation that can execute words, and fail with a report. -/
abbrev Script (E : Embedding) := EStateM (Halt Report) (Machine E)

variable {E : Embedding}

/-- Do a computation and give its errors another form. -/
def mapHalt {ε δ α : Type} (f : ε → δ) (x : EStateM ε (Machine E) α) :
    EStateM δ (Machine E) α := fun m =>
  match x m with
  | .ok a m => .ok a m
  | .error e m => .error (f e) m

/-- Actions never starve. -/
def Act.run {α : Type} (x : Act E α) : Run E α := mapHalt Halt.failed x

/-- The computation whose allowance is used up. -/
def starve {ε α : Type} : EStateM (Halt ε) (Machine E) α :=
  throw .starved

end Forth
