import Forth.Machine.Act

/-!
# What the words about words and variables do
-/

namespace Forth.NameWord

open Act

variable {E : Embedding}

/-- What a word of this family does. -/
def act : NameWord → Act E Unit
  | isImmediate => do
    let h ← popWord
    push (.bool ((← get).dictionary.isImmediate h))
  | wordFromName => do
    let name ← popText
    let v := (← get).dictionary.translate name
    push v
    push (.bool v.isWord)
  | forthInterpret => do push (.bool (← get).interpreting)
  | store => do
    let name ← popText
    let v ← pop
    setVariable name v
  | fetch => do
    let name ← popText
    match ← findVariable name with
    | some v => push v
    | none => fail ("variable " ++ name ++ " has not been set")

end Forth.NameWord
