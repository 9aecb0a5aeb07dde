import Forth.Location
import Forth.Text.Quoted

/-!
# Trace events

What a machine lets be known of its work, for those who watch it.  Each event
has a level; a watcher sees the events of its own level and of the graver
ones.
-/

namespace Forth

/-- How grave an event is. -/
inductive Level where
  | warn
  | debug
  | trace
deriving DecidableEq, Repr

namespace Level

/-- The graver, the smaller. -/
def rank : Level → Nat
  | warn => 0
  | debug => 1
  | trace => 2

/-- The name of a level before its events. -/
def text : Level → String
  | warn => "WARN"
  | debug => "DEBUG"
  | trace => "TRACE"

/-- Whether a watcher of one level sees events of another. -/
def sees (watcher event : Level) : Bool := event.rank ≤ watcher.rank

end Level

/-- Something that happened in a machine. -/
inductive Event where
  /-- The machine was set up. -/
  | initialized (words : Nat)
  /-- A cell was fetched. -/
  | stepped (word : String) (index : Nat) (cell : String)
      (depth returnDepth : Nat)
  /-- The machine turned from compiling to interpreting or back. -/
  | modeChanged (interpreting : Bool)
  /-- A word was begun. -/
  | creating (name : String)
  /-- A word was finished; `cells` is its dump. -/
  | defined (name cells : String)
  /-- A run failed and was given up. -/
  | aborted (message : String) (location : Option Location)
  /-- A line of the input could not be decoded. -/
  | readFailed (path : String)
deriving DecidableEq, Repr

/-- What bytes that are not text are complained about with. -/
def undecodableText : String := "stream did not contain valid UTF-8"

namespace Event

/-- The level of an event. -/
def level : Event → Level
  | aborted .. | readFailed .. => .warn
  | stepped .. => .trace
  | _ => .debug

/-- What happened, and then the particulars by name. -/
def body : Event → String
  | initialized words => "machine initialized words=" ++ toString words
  | stepped word index cell depth returnDepth =>
    "step word=" ++ word ++ " index=" ++ toString index ++ " cell=" ++ cell
      ++ " depth=" ++ toString depth
      ++ " return_depth=" ++ toString returnDepth
  | modeChanged interpreting =>
    "compile state changed interpreting=" ++
      (if interpreting then "true" else "false")
  | creating name => "creating word name=" ++ Text.quoted name
  | defined name cells => "defined word\n" ++ cells ++ " name=" ++ name
  | aborted message location =>
    "run aborted error=" ++ message ++ " location=" ++
      match location with
      | some l => "Some(" ++ l.text ++ ")"
      | none => "None"
  | readFailed path =>
    "input read failed, treating as end of input path=" ++ path
      ++ " error=" ++ undecodableText

/-- The written event. -/
def text (e : Event) : String := e.level.text ++ " " ++ e.body

end Event

end Forth
