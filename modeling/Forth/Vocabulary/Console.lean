import Forth.Decompile
import Forth.Machine.Act

/-!
# What the words that read and write do

Reading at the end of the input gives the empty string.  Everything that is
written goes out at once, or, if the output refuses it, not at all.
-/

namespace Forth.ConsoleWord

open Act

variable {E : Embedding}

/-- The character of a code. -/
def charOfCode? (code : Int) : Option Char :=
  if 0 ≤ code ∧ code.toNat.isValidChar then some (Char.ofNat code.toNat)
  else none

/-- Write the character of a code, or a string. -/
def emitValue : Act E Unit := do
  match ← pop with
  | .int n =>
    match charOfCode? n.toInt with
    | some c => write c.toString
    | none => fail (toString n.toInt ++ " is not a character code")
  | .string s => write s
  | v => fail ("can not emit " ++ v.typeName ++ " " ++ v.text)

/-- The values of a data stack, bottom first, after their number. -/
def stackText (values : List Value) : String :=
  "<" ++ toString values.length ++ ">"
    ++ String.join (values.map fun v => " " ++ v.text) ++ "\n"

/-- Write the source of the word that the next token names. -/
def seeNext : Act E Unit := do
  let name ← nextTokenText
  let m ← get
  match m.dictionary.lookup name with
  | none => fail ("word " ++ name ++ " is not defined")
  | some h => write (m.definitionText h ++ "\n")

/-- What a word of this family does. -/
def act : ConsoleWord → Act E Unit
  | word => do
    let t ← nextToken?
    push (.string ((t.map Token.text).getD ""))
  | key => do
    let c ← nextChar?
    push (.string ((c.map Char.toString).getD ""))
  | emit => emitValue
  | print => do write ((← pop).text ++ " ")
  | printStack => do write (stackText (← get).data.toList)
  | newline => write "\n"
  | words => do write (← get).dictionary.listing
  | see => seeNext

end Forth.ConsoleWord
