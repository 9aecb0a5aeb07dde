import Forth.Engine
import Forth.Machine.Start

/-!
# The outer interpreter

The outer interpreter reads tokens and translates them.  While interpreting,
words are executed and other values pushed; while compiling, they are
appended to the word under construction, values after the built-in `lit`, and
only immediate words are executed.

There are two outer interpreters: `interpret` is this rule, `boot` runs the
thread `init`, which follows the same rule in the machine's own words.  After
a failure they either stop with a report, or pass it over and go on with the
next line.
-/

namespace Forth

variable {E : Embedding}

/-- What is done about a failure. -/
inductive OnError where
  /-- Give the report back. -/
  | stop
  /-- Announce the failure, give up the line and go on. -/
  | resume
deriving DecidableEq, Repr

/-- Files by path. -/
abbrev Files := Table ByteArray

/-- Why a file that is not there can not be read. -/
def missingText : String := "No such file or directory (os error 2)"

/-- The text of a file, or why there is none. -/
def Files.readText (files : Files) (path : String) : Except String String :=
  match files.find? path with
  | none => .error missingText
  | some bytes =>
    match String.fromUTF8? bytes with
    | none => .error undecodableText
    | some text => .ok text

/-- The fault of a file that can not be read. -/
def unreadable (path reason : String) : Fault :=
  .io ("could not read " ++ path ++ ": " ++ reason)

namespace Machine

/-- Interpret or compile a value. -/
def processValue (p : Primitives E) (fuel : Nat) (v : Value) : Run E Unit :=
  fun m =>
    match v with
    | .word w =>
      if m.interpreting ∨ m.dictionary.isImmediate w then
        execute p fuel w m
      else (Act.compile (.word w)).run m
    | v =>
      if m.interpreting then (Act.push v).run m
      else
        Act.run (do
          let lit ← Act.builtin "lit"
          Act.compile (.word lit)
          Act.compile (.literal v)) m

/-- Interpret or compile a token. -/
def processToken (p : Primitives E) (fuel : Nat) (t : Token) : Run E Unit :=
  fun m => processValue p fuel (m.dictionary.translate t.text) m

/-- Recover from a fault, and stop with the report or pass it over. -/
def handleError (policy : OnError) (f : Fault) : Script E Unit := fun m =>
  let (report, m) := m.recover f
  match policy with
  | .stop => .error (.failed report) m
  | .resume =>
    .ok () { m with reports := report :: m.reports }.discardLine

/-- Read and process tokens until none is left or the machine is told to
stop. -/
def interpret (p : Primitives E) (policy : OnError) : Nat → Script E Unit
  | 0 => starve
  | fuel + 1 => fun m =>
    if m.finished then .ok () m
    else
      match m.nextToken with
      | (none, m) => .ok () m
      | (some t, m) =>
        match processToken p fuel t m with
        | .ok () m => interpret p policy fuel m
        | .error .starved m => .error .starved m
        | .error (.failed f) m =>
          match handleError policy f m with
          | .ok () m => interpret p policy fuel m
          | .error e m => .error e m

/-- Execute a word again and again until that ends without a fault or the
machine is told to stop. -/
def bootFrom (p : Primitives E) (policy : OnError) (init : Handle) :
    Nat → Script E Unit
  | 0 => starve
  | fuel + 1 => fun m =>
    if m.finished then .ok () m
    else
      match execute p fuel init m with
      | .ok () m => .ok () m
      | .error .starved m => .error .starved m
      | .error (.failed f) m =>
        match handleError policy f m with
        | .ok () m => bootFrom p policy init fuel m
        | .error e m => .error e m

/-- Run the input through the thread `init`. -/
def boot (p : Primitives E) (policy : OnError) (fuel : Nat) :
    Script E Unit := do
  let init ← mapHalt (fun f => .failed (.ofFault f)) (Act.builtin "init")
  bootFrom p policy init fuel

/-- Replace the input while a computation is done. -/
def reading {α : Type} (input : Source) (x : Script E α) : Script E α :=
  fun m =>
    match x { m with input := input } with
    | .ok a after => .ok a { after with input := m.input }
    | .error (.failed r) after =>
      .error (.failed r) { after with input := m.input }
    | .error .starved after => .error .starved after

/-- Run a source text, stopping at the first failure. -/
def processSource (p : Primitives E) (fuel : Nat) (path text : String) :
    Script E Unit :=
  reading (.ofText path text) (interpret p .stop fuel)

/-- Run a source file, stopping at the first failure. -/
def processFile (p : Primitives E) (fuel : Nat) (files : Files)
    (path : String) : Script E Unit :=
  match files.readText path with
  | .error reason =>
    throw (.failed (.ofFault (unreadable path reason)))
  | .ok text => processSource p fuel path text

end Machine

end Forth
