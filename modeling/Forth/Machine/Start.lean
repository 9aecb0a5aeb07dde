import Forth.Machine.Basic

/-!
# A new machine

A machine starts with the built-in words and two threads assembled from
them.  `interpret` is the outer interpreter as a thread: it reads a token,
and as long as there is one looks it up, and executes it, compiles it, pushes
it or compiles it as a literal.  `init` runs it once.
-/

namespace Forth

/-- The outer interpreter as a thread.  Offsets count from the cell after
them. -/
def interpretText : String :=
  "[ word dup 0branch 26 " ++
  "word_from_name 0branch 12 " ++
  "dup is_immediate forth_interpret or 0branch 3 " ++
  "exec branch -16 " ++
  ", branch -19 " ++
  "forth_interpret 0branch 2 branch -24 " ++
  "' lit , , branch -30 " ++
  "drop exit"

/-- The thread that a machine is booted with. -/
def initText : String := "interpret exit"

namespace Machine

variable {E : Embedding}

/-- Add the built-in words. -/
def addBuiltins (m : Machine E) : Machine E :=
  Builtin.all.foldl (fun m b => (m.addNative b.entry (.builtin b)).2) m

/-- Assemble a thread that counts as a built-in word. -/
def addThread (m : Machine E) (name text : String) : Machine E :=
  let (h, m) := m.assemble name text false
  { m with builtins := m.builtins.insert name h }

/-- A machine at the start of its life. -/
def new (output : Sink) (watcher : Option Level) (host : E.State) :
    Machine E :=
  let m := (bare output watcher host).addBuiltins
  let m := m.addThread "interpret" interpretText
  let m := m.addThread "init" initText
  m.record (.initialized m.dictionary.size)

end Machine

end Forth
