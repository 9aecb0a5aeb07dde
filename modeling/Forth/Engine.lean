import Forth.Vocabulary.Compile
import Forth.Vocabulary.Console
import Forth.Vocabulary.Math
import Forth.Vocabulary.Names
import Forth.Vocabulary.Stacks
import Forth.Vocabulary.Threads

/-!
# The inner interpreter

To execute a native word is to do what it does.  To execute a thread while
another one is running is to put the cursor of the caller on the return stack
and to move to the first cell; the loop that is already running goes on from
there.  To execute a thread with none running is to start a run: the loop
fetches cell after cell, executes words and pushes values, until the thread
that was started returns.

What native words do is a parameter, given by `Primitives`.  With `standard`
it is what the built-in words do; other choices let one ask what a run does
as long as some word is not used.

`execute` and `loop` call each other with an allowance that shrinks at every
call.
-/

namespace Forth

variable {E : Embedding}

namespace Builtin

/-- What a built-in word does, given how words are executed. -/
def act (call : Handle → Run E Unit) : Builtin → Run E Unit
  | stack w => w.act.run
  | math w => w.act.run
  | compile w => w.act.run
  | thread w => w.act call
  | name w => w.act.run
  | console w => w.act.run

end Builtin

/-- What native words do. -/
structure Primitives (E : Embedding) where
  /-- The built-in words, given how words are executed. -/
  builtin : (Handle → Run E Unit) → Builtin → Run E Unit
  /-- The words of the embedding program. -/
  host : E.Code → Run E Unit

namespace Primitives

/-- The built-in words as they are, next to the words of an embedding
program. -/
def standard (host : E.Code → Run E Unit) : Primitives E :=
  ⟨Builtin.act, host⟩

/-- The built-in words and no others. -/
def pure : Primitives Embedding.none := standard nofun

/-- The same primitives with some built-in words out of reach: a run that
would use one of them starves, in the machine that was about to use it. -/
def without (p : Primitives E) (barred : Builtin → Bool) : Primitives E :=
  { p with
    builtin := fun call b => if barred b then starve else p.builtin call b }

end Primitives

namespace Machine

/-- Do what a native word does, with the word down as the one at work.  A
failure is blamed on it, unless an inner one has been blamed already. -/
def invoke (w : Handle) (action : Run E Unit) : Run E Unit := fun m =>
  match action { m with executing := some w } with
  | .ok () after => .ok () { after with executing := m.executing }
  | .error (.failed f) after =>
    .error (.failed f) { after.captureBlame with executing := m.executing }
  | .error .starved after => .error .starved after

/-- Leave the running thread at its cursor and move to the first cell of
another. -/
def descend (m : Machine E) (caller : Cursor) (w : Handle) : Machine E :=
  { m with
    returns := m.returns.push (.call caller)
    cursor := some (.start w) }

/-- Start a run of a thread, with the loop that carries it on.  Afterwards no
thread is running. -/
def startRun (w : Handle) (loop : Run E Unit) : Run E Unit := fun m =>
  let entered :=
    { m with base := m.returns.depth, cursor := some (.start w) }
  match loop entered with
  | .ok () after => .ok () { after with cursor := none, base := m.base }
  | .error (.failed f) after =>
    .error (.failed f)
      { after.captureBlame with cursor := none, base := m.base }
  | .error .starved after => .error .starved after

/-- Let a fetched cell be known to those who watch closely. -/
def traceStep (m : Machine E) (c : Cursor) (cell : Cell) : Machine E :=
  if m.watches .trace then
    m.record (.stepped c.word.name c.index cell.text m.data.depth
      m.returns.depth)
  else m

/-- One turn of the loop, from a running thread: exit if it has run out, else
fetch a cell and do what it says. -/
def step (call : Handle → Run E Unit) (c : Cursor) : Run E Unit := do
  if c.isExhausted ((← get).dictionary.cells c.word).size then
    Act.exitThread.run
  else
    let cell ← Act.fetchOperand.run
    modify fun m => m.traceStep c cell
    match cell with
    | .word w => call w
    | .literal v => (Act.push v).run

mutual

/-- Execute a word. -/
def execute (p : Primitives E) : Nat → Handle → Run E Unit
  | 0, _ => starve
  | fuel + 1, w => fun m =>
    let m := m.forgetBlame
    match m.dictionary.body w with
    | .builtin b => invoke w (p.builtin (execute p fuel) b) m
    | .host code => invoke w (p.host code) m
    | .thread _ =>
      match m.cursor with
      | some caller => .ok () (m.descend caller w)
      | none => startRun w (loop p fuel) m

/-- Carry on the running thread until its run is over. -/
def loop (p : Primitives E) : Nat → Run E Unit
  | 0 => starve
  | fuel + 1 => fun m =>
    match m.cursor with
    | none => .ok () m
    | some c =>
      match step (execute p fuel) c m with
      | .ok () m => loop p fuel m
      | .error e m => .error e m

end

end Machine

end Forth
