import Forth.Machine.Basic

/-!
# Actions

An action is a step of a machine that can fail.  What it changed before the
failure stays changed.  The native words are made of these.
-/

namespace Forth

/-- A step that gives a result or fails. -/
abbrev Act (E : Embedding) := EStateM Fault (Machine E)

namespace Act

variable {E : Embedding}

/-- Do a step that can not fail. -/
def perform {α : Type} (step : Machine E → α × Machine E) : Act E α :=
  modifyGet step

/-- Go on with what a computation gives, or fail as it does. -/
def ofExcept {α : Type} : Except Fault α → Act E α
  | .ok a => pure a
  | .error f => throw f

/-- Fail, blaming the word that is executing. -/
def fail {α : Type} (message : String) : Act E α := do
  throw (.failed (← get).executingName message)

/-! ## The data stack -/

/-- Put a value on the data stack. -/
def push (v : Value) : Act E Unit :=
  modify fun m => { m with data := m.data.push v }

/-- Take a value from the data stack. -/
def pop : Act E Value := do
  let m ← get
  match m.data.pop? with
  | none => throw (.underflow .data)
  | some (v, data) =>
    set { m with data := data }
    return v

/-- A value on the data stack, which stays there. -/
def peek (n : Nat) : Act E Value := do
  match (← get).data.peek? n with
  | none => throw (.underflow .data)
  | some v => return v

/-- The number of values on the data stack. -/
def depth : Act E Nat := return (← get).data.depth

/-- Complain about a value of the wrong type. -/
def expected {α : Type} (what : String) (v : Value) : Act E α :=
  fail ("expected " ++ what ++ ", found " ++ v.typeName ++ " " ++ v.text)

/-- Take an integer; truth values count as one and zero. -/
def popInt : Act E Int64 := do
  match ← pop with
  | .int n => return n
  | .bool b => return if b then 1 else 0
  | v => expected "an integer" v

/-- Take an integer that is not negative. -/
def popNat : Act E Nat := do
  let n ← popInt
  if n < 0 then
    fail ("expected a non-negative integer, found " ++ toString n.toInt)
  else return n.toInt.toNat

/-- Take a value for its truth. -/
def popTruth : Act E Bool := return (← pop).isTruthy

/-- Take a text; a word counts as its name. -/
def popText : Act E String := do
  match ← pop with
  | .string s => return s
  | .word w => return w.name
  | v => expected "a string" v

/-- Take a word. -/
def popWord : Act E Handle := do
  match ← pop with
  | .word w => return w
  | v => throw (.notExecutable v.text)

/-! ## The return stack and the running thread -/

/-- Put a frame on the return stack. -/
def pushFrame (f : Frame) : Act E Unit :=
  modify fun m => { m with returns := m.returns.push f }

/-- Take a frame from the return stack. -/
def popFrame : Act E Frame := do
  let m ← get
  match m.returns.pop? with
  | none => throw (.underflow .returns)
  | some (f, returns) =>
    set { m with returns := returns }
    return f

/-- The running thread. -/
def cursor : Act E Cursor := do
  match (← get).cursor with
  | none => throw .noThread
  | some c => return c

/-- Read the next cell of the running thread and move past it. -/
def fetchOperand : Act E Cell := do
  let c ← cursor
  let (cell, c) ← ofExcept (c.fetch ((← get).dictionary.cells c.word))
  modify fun m => { m with cursor := some c }
  return cell

/-- Move the running thread by a number of cells. -/
def jump (offset : Int64) : Act E Unit := do
  let c ← cursor
  let length := ((← get).dictionary.cells c.word).size
  let c ← ofExcept (c.jump length offset)
  modify fun m => { m with cursor := some c }

/-- Return from the running thread: to its caller, or out of the run if it is
the thread that the run was started with. -/
def exitThread : Act E Unit := do
  let _ ← cursor
  let m ← get
  if m.returns.depth ≤ m.base then set { m with cursor := none }
  else
    match ← popFrame with
    | .call caller => modify fun m => { m with cursor := some caller }
    | .value v => throw (.notExecutable ("return stack value " ++ v.text))

/-! ## Input and output -/

/-- Read a token, if there is one. -/
def nextToken? : Act E (Option Token) := perform Machine.nextToken

/-- Read the text of a token. -/
def nextTokenText : Act E String := do
  match ← nextToken? with
  | none => throw .endOfInput
  | some t => return t.text

/-- Read a character, if there is one. -/
def nextChar? : Act E (Option Char) := perform Machine.nextChar

/-- Write a text. -/
def write (text : String) : Act E Unit := do
  let m ← get
  match m.output.write? text with
  | some output => set { m with output := output }
  | none => fail ("write failed: " ++ Sink.refusal)

/-! ## Words -/

/-- One of the words that the machine was started with. -/
def builtin (name : String) : Act E Handle := do
  match (← get).builtins.find? name with
  | none => throw (.notExecutable name)
  | some h => return h

/-- The word that cells are compiled into. -/
def underConstruction : Act E Handle := do
  match (← get).underConstruction with
  | none => throw .nothingDefined
  | some h => return h

/-- Append a cell to a word. -/
def append (h : Handle) (c : Cell) : Act E Unit := do
  let dictionary ← ofExcept ((← get).dictionary.append h c)
  modify fun m => { m with dictionary := dictionary }

/-- Append a cell to the word under construction. -/
def compile (c : Cell) : Act E Unit := do
  append (← underConstruction) c

/-- Make a word one that also runs while compiling. -/
def markImmediate (h : Handle) : Act E Unit :=
  modify fun m => { m with dictionary := m.dictionary.markImmediate h }

/-- Turn to interpreting or to compiling. -/
def setInterpreting (interpreting : Bool) : Act E Unit :=
  modify fun m => m.setInterpreting interpreting

/-- Define an empty word and put it under construction. -/
def createWord (name : String) : Act E Handle :=
  perform fun m => m.createWord name

/-- The value of a variable. -/
def findVariable (name : String) : Act E (Option Value) :=
  return (← get).memory.find? name

/-- Set a variable. -/
def setVariable (name : String) (v : Value) : Act E Unit :=
  modify fun m => { m with memory := m.memory.insert name v }

end Act

end Forth
