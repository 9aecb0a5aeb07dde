import Forth.Dictionary
import Forth.Event
import Forth.Sink
import Forth.Token

/-!
# The machine

All state of a machine is in one structure, and nothing of it is anywhere
else: the dictionary, the data and return stacks, the cursor of the running
thread, the mode, what is under construction, the variables, the input and
the output.

A run of a thread is the stretch from the moment a thread is started with no
other running until that thread returns.  `base` is the depth that the return
stack had at that moment, and the run is over when a thread exits at that
depth.

This module has the state and the steps that can not fail; those that can are
in `Forth.Machine.Act`.
-/

namespace Forth

/-- The state of a machine that is embedded in `E`. -/
structure Machine (E : Embedding) where
  dictionary : Dictionary E
  /-- The words that the machine was started with.  Defining a name again
  does not change them. -/
  builtins : Table Handle
  data : Stack Value
  returns : Stack Frame
  /-- The running thread, if there is one. -/
  cursor : Option Cursor
  base : Nat
  /-- Interpreting, as opposed to compiling. -/
  interpreting : Bool
  /-- The word that cells are compiled into, also after it is finished. -/
  underConstruction : Option Handle
  /-- The values of the variables. -/
  memory : Table Value
  /-- The native word that is at work, if there is one. -/
  executing : Option Handle
  /-- Who was running when the present failure came up. -/
  blame : Option CallTrace
  /-- The place of the token read last. -/
  location : Option Location
  /-- Set for good when the machine is told to stop. -/
  finished : Bool
  input : Source
  output : Sink
  /-- The level of the events that are recorded, if any are. -/
  watcher : Option Level
  /-- Recorded events, newest first. -/
  events : List Event
  /-- Reports of failures that were passed over, newest first. -/
  reports : List Report
  host : E.State

namespace Machine

variable {E : Embedding}

/-- A machine that knows no words. -/
def bare (output : Sink) (watcher : Option Level) (host : E.State) :
    Machine E where
  dictionary := .empty
  builtins := .empty
  data := .empty
  returns := .empty
  cursor := none
  base := 0
  interpreting := true
  underConstruction := none
  memory := .empty
  executing := none
  blame := none
  location := none
  finished := false
  input := .empty
  output := output
  watcher := watcher
  events := []
  reports := []
  host := host

/-! ## Events -/

/-- Whether events of a level are recorded. -/
def watches (m : Machine E) (l : Level) : Bool :=
  m.watcher.any fun watcher => watcher.sees l

/-- Record an event, if anybody watches. -/
def record (m : Machine E) (e : Event) : Machine E :=
  if m.watches e.level then { m with events := e :: m.events } else m

/-! ## Who is running -/

/-- The words that are running, oldest first: the callers on the return
stack, the running thread and the native word at work. -/
def callTrace (m : Machine E) : CallTrace :=
  let callers := m.returns.toList.filterMap fun
    | .call c => some (m.dictionary.callSite c)
    | .value _ => none
  let running := m.cursor.toList.map m.dictionary.callSite
  let atWork := m.executing.toList.map fun w =>
    ⟨w.name, m.dictionary.locationOf w, none⟩
  callers ++ running ++ atWork

/-- The name that failures are blamed on. -/
def executingName (m : Machine E) : String :=
  match m.executing, m.cursor with
  | some w, _ => w.name
  | none, some c => c.word.name
  | none, none => "<top level>"

/-- Keep who is running as the ones to blame, unless an inner failure has
been blamed already. -/
def captureBlame (m : Machine E) : Machine E :=
  if m.blame.isNone then { m with blame := some m.callTrace } else m

/-- With nothing running, no earlier failure is of any concern. -/
def forgetBlame (m : Machine E) : Machine E :=
  if m.cursor.isNone ∧ m.executing.isNone then { m with blame := none }
  else m

/-! ## Input -/

/-- Deal with what fetching input has brought up: prompts are written, and
read failures recorded. -/
def heed (m : Machine E) (notice : Notice) : Machine E :=
  match notice with
  | .prompted text => { m with output := m.output.append text }
  | .readFailed => m.record (.readFailed m.input.location.path)

/-- Go on with the input as an operation on it left it. -/
def withInput (m : Machine E) (input : Source) : Machine E :=
  let (notices, input) := input.takeNotices
  notices.foldl heed { m with input := input }

/-- Read a token and remember its place. -/
def nextToken (m : Machine E) : Option Token × Machine E :=
  match m.input.nextToken with
  | (none, input) => (none, m.withInput input)
  | (some t, input) =>
    (some t, { m.withInput input with location := some t.location })

/-- Read a character. -/
def nextChar (m : Machine E) : Option Char × Machine E :=
  let (c, input) := m.input.next
  (c, m.withInput input)

/-- Give up the rest of the input line. -/
def discardLine (m : Machine E) : Machine E :=
  { m with input := m.input.discardLine }

/-! ## Compiling -/

/-- Where a word that is defined now is said to be defined. -/
def definitionSite (m : Machine E) : Location :=
  m.location.getD .unspecified

/-- Turn to interpreting or to compiling. -/
def setInterpreting (m : Machine E) (interpreting : Bool) : Machine E :=
  let m :=
    if m.interpreting = interpreting then m
    else m.record (.modeChanged interpreting)
  { m with interpreting := interpreting }

/-- Add a definition. -/
def define (m : Machine E) (w : Word E) : Handle × Machine E :=
  let (h, dictionary) := m.dictionary.define w
  (h, { m with dictionary := dictionary })

/-- Define an empty thread and put it under construction. -/
def createWord (m : Machine E) (name : String) : Handle × Machine E :=
  let m := m.record (.creating name)
  let (h, m) := m.define (.ofCells name m.definitionSite #[])
  (h, { m with underConstruction := some h })

/-- Add a native word, to the dictionary and to the built-in words. -/
def addNative (m : Machine E) (entry : Entry) (body : Body E) :
    Handle × Machine E :=
  let (h, m) := m.define (.native entry body)
  (h, { m with builtins := m.builtins.insert entry.name h })

/-- Define a thread from the translated tokens of a text.  Nothing is put
before values, so that operands can be written where they belong. -/
def assemble (m : Machine E) (name text : String) (immediate : Bool) :
    Handle × Machine E :=
  let cells := (tokenize name text).map fun t =>
    Cell.ofValue (m.dictionary.translate t.text)
  let w : Word E := .ofCells name m.definitionSite cells.toArray
  m.define { w with immediate := immediate }

/-! ## Stopping -/

/-- Stop for good: no thread runs on, and no input is read from now on. -/
def finish (m : Machine E) : Machine E :=
  { m with
    finished := true
    cursor := none
    returns := m.returns.truncate m.base }

/-- Go back to a clean top level.  Data stack and dictionary stay. -/
def resetRunState (m : Machine E) : Machine E :=
  { m with
    returns := m.returns.clear
    cursor := none
    base := 0
    executing := none
    interpreting := true }

/-- Give up a failed run: report it, and go back to the top level. -/
def recover (m : Machine E) (f : Fault) : Report × Machine E :=
  let report : Report := ⟨m.location, f, m.blame⟩
  let m := { m with blame := none }.record (.aborted f.message m.location)
  (report, m.resetRunState)

end Machine

end Forth
