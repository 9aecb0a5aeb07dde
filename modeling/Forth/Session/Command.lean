import Forth.Decompile
import Forth.Interpreter

/-!
# Sessions: commands and replies

A session is how a program drives a machine that it embeds: one command after
the other, each answered by a reply.  A command can also supply a new native
word, whose body is again a list of commands; they are carried out on the
machine whenever the word is executed, and what came of each is written to a
journal.

Replies and snapshots are values of their own.  They show words by name,
together with whether the name still has that definition, so that they can be
read without the machine.
-/

namespace Forth.Session

/-- A value that a command brings: given outright, or as the current
definition of a name. -/
inductive Operand where
  | value (v : Value)
  | named (name : String)

mutual

/-- Something that a machine can be asked to do. -/
inductive Command where
  | source (path text : String)
  | file (path : String)
  | input (source : Source)
  | interpret (policy : OnError)
  | boot (policy : OnError)
  /-- Process the tokens of a source one by one, recovering from faults. -/
  | each (source : Source)
  | token (text : String)
  | process (v : Operand)
  | execute (name : String)
  | executeBuiltin (name : String)
  | nextToken
  | nextTokenText
  | nextChar
  | push (v : Operand)
  | pop
  | peek (n : Nat)
  | popInt
  | popNat
  | popTruth
  | popText
  | popWord
  | cursor
  | fetchOperand
  | jump (offset : Int64)
  | exitThread
  | pushFrame (v : Operand)
  | popFrame
  | callTrace
  | executing
  | find (name : String)
  | builtin (name : String)
  | assemble (name text : String) (immediate : Bool)
  | native (entry : Entry) (body : List Step)
  | append (name : String) (v : Operand)
  | mark (name : String)
  | last
  | listing
  | decompile (name : String)
  | definition (name : String)
  | dump (name : String)
  | setInterpreting (interpreting : Bool)
  | underConstruction
  | create (name : String)
  | compile (v : Operand)
  | setVariable (name : String) (v : Operand)
  | readVariable (name : String)
  | write (text : String)
  | finish
  | reset
  | recover

/-- A command with the label it is journaled under, and whether the steps
after it are taken even if it fails. -/
inductive Step where
  | mk (label : String) (catches : Bool) (command : Command)

end

/-- The label of a step. -/
def Step.label : Step → String
  | mk label _ _ => label

/-- Whether a failure of a step is passed over. -/
def Step.catches : Step → Bool
  | mk _ catches _ => catches

/-- The command of a step. -/
def Step.command : Step → Command
  | mk _ _ command => command

/-- A value, and whether it is a word that its name still stands for. -/
structure Shown where
  value : Value
  current : Bool

/-- A cell, and whether it calls a word that its name still stands for. -/
structure ShownCell where
  cell : Cell
  current : Bool

/-- An entry of the return stack. -/
inductive ShownFrame where
  | call (cursor : String)
  | value (v : Shown)

/-- What there is to know of a definition.  Native words have no place and no
cells. -/
structure WordInfo where
  name : String
  immediate : Bool
  length : Nat
  description : String
  signature : String
  location : Option Location
  cells : Option (List ShownCell)

/-- Whether the definition is that of a native word. -/
def WordInfo.isNative (w : WordInfo) : Bool := w.cells.isNone

/-- A word by name, for diagnosis. -/
def WordInfo.described (w : WordInfo) : String := "Word(" ++ w.name ++ ")"

/-- What came of one token: the data stack after it, bottom first, and the
report if it failed. -/
structure Progress where
  token : String
  stack : List Shown
  report : Option Report

/-- What a command answers. -/
inductive Reply where
  | nothing
  | text (s : String)
  | flag (b : Bool)
  | value (v : Shown)
  | token (t : Token)
  | cell (c : ShownCell)
  | frame (f : ShownFrame)
  | calls (trace : CallTrace)
  | texts (tokens : List String)
  | word (w : WordInfo)
  | report (r : Report)
  | progress (tokens : List Progress)

/-- How a command fails. -/
inductive Failure where
  | fault (f : Fault)
  | report (r : Report)

/-- The cause of a failure. -/
def Failure.cause : Failure → Fault
  | fault f => f
  | report r => r.fault

/-- What came of a command. -/
abbrev Outcome := Except Failure Reply

/-- What came of a step in the body of a native word. -/
structure Record where
  label : String
  outcome : Outcome

/-- What a session keeps in its machine: the records of the bodies, newest
first, and the cause of the last failure. -/
structure Journal where
  records : List Record
  remembered : Option Fault

/-- The embedding of a machine in a session. -/
def embedding : Embedding := ⟨List Step, Journal⟩

/-- A machine that is driven by a session. -/
abbrev Driven := Machine embedding

/-- A computation of a session. -/
abbrev Talk := EStateM (Halt Failure) Driven

end Forth.Session
