import Forth.Decompile
import Forth.Machine.Act

/-!
# What the words that make words do

A definition starts with `:`, which creates the word of the next token and
turns to compiling, and ends with `;`, which appends the built-in `exit` and
turns back.  Between brackets the machine interprets.  Nothing ties these
words together but the mode and the word under construction.
-/

namespace Forth.CompileWord

open Act

variable {E : Embedding}

/-- Append the built-in `exit` and go back to interpreting. -/
def finishWord : Act E Unit := do
  compile (.word (← builtin "exit"))
  setInterpreting true
  if (← get).watches .debug then
    let h ← underConstruction
    modify fun m => m.record (.defined h.name (m.dump h))

/-- The source without the tokens up to and including the first that ends in
a closing parenthesis, looked for among at most `limit` tokens. -/
def skipComment : Nat → Machine E → Machine E
  | 0, m => m
  | limit + 1, m =>
    match m.nextToken with
    | (none, m) => m
    | (some t, m) =>
      if t.text.toList.getLast? == some ')' then m else skipComment limit m

/-- What a word of this family does. -/
def act : CompileWord → Act E Unit
  | define => do
    let name ← nextTokenText
    let _ ← createWord name
    setInterpreting false
  | endDefine => finishWord
  | create => do
    let name ← popText
    let _ ← createWord name
  | immediate => do markImmediate (← underConstruction)
  | comma => do compile (.ofValue (← pop))
  | interpretMode => setInterpreting true
  | compileMode => setInterpreting false
  | comment => modify fun m => skipComment (m.input.supply + 1) m

end Forth.CompileWord
