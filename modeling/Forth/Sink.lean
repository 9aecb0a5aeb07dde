/-!
# Output sinks

Where a machine writes to.  A sink keeps the text written to it, and may have
room for a limited number of bytes: a text that does not fit is refused as a
whole, and nothing of it is kept.
-/

namespace Forth

/-- What has been written, and how many bytes still can be. -/
structure Sink where
  written : String
  room : Option Nat
deriving DecidableEq, Repr

namespace Sink

/-- A sink that takes everything. -/
def unlimited : Sink := ⟨"", none⟩

/-- A sink for a limited number of bytes. -/
def limited (room : Nat) : Sink := ⟨"", some room⟩

/-- Add a text without asking for room. -/
def append (s : Sink) (text : String) : Sink :=
  { s with written := s.written ++ text }

/-- Write a text, if there is room for it. -/
def write? (s : Sink) (text : String) : Option Sink :=
  match s.room with
  | none => some (s.append text)
  | some room =>
    if text.utf8ByteSize ≤ room then
      some { s.append text with room := some (room - text.utf8ByteSize) }
    else none

/-- What a refused write is complained about with. -/
def refusal : String := "sink full"

/-- Hand over what has been written. -/
def take (s : Sink) : String × Sink := (s.written, { s with written := "" })

end Sink

end Forth
