import Forth.Fault
import Forth.Location

/-!
# Failure reports

A report says what went wrong, at which token, and which words were running,
oldest first.  It is written with the place and the cause on the first line
and, if any word was running, the chain of calls below, newest first.
-/

namespace Forth

/-- A word that was running.  Words that are threads also have the index of
the cell fetched last. -/
structure CallSite where
  word : String
  location : Location
  index : Option Nat
deriving DecidableEq, Repr

/-- A line of the chain of calls. -/
def CallSite.text (s : CallSite) : String :=
  s.location.text ++ ": " ++ s.word ++
    match s.index with
    | some i => " +" ++ toString i
    | none => ""

/-- A word without cells has no place in any source. -/
def CallSite.unplaced (s : CallSite) : CallSite :=
  if s.index.isNone then { s with location := .native } else s

/-- The words that were running, oldest first. -/
abbrev CallTrace := List CallSite

/-- A failed run. -/
structure Report where
  location : Option Location
  fault : Fault
  calls : Option CallTrace
deriving DecidableEq, Repr

namespace Report

/-- The report of a failure about which nothing but the cause is known. -/
def ofFault (f : Fault) : Report := ⟨none, f, none⟩

/-- The report without places for words that have no cells. -/
def unplaced (r : Report) : Report :=
  { r with calls := r.calls.map (List.map CallSite.unplaced) }

/-- The place, if known, and the cause. -/
def headline (r : Report) : String :=
  match r.location with
  | some l => l.text ++ ": " ++ r.fault.message
  | none => r.fault.message

/-- The chain of calls as it is written below the headline. -/
def callText : CallTrace → String
  | [] => ""
  | calls =>
    "\n\nCall stack\n" ++
      String.join (calls.reverse.map fun s => "  " ++ s.text ++ "\n")

/-- The written report. -/
def text (r : Report) : String :=
  r.headline ++ callText (r.calls.getD [])

/-- What a user sees of a report. -/
def announcement (r : Report) : String := "Error: " ++ r.text ++ "\n"

end Report

end Forth
