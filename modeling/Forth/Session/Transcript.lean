import Forth.Session.Perform

/-!
# Transcripts

A session is a list of steps on a new machine.  Its transcript has one
snapshot for each of them: what came of the step, what it wrote and recorded,
and the state it left behind.
-/

namespace Forth.Session

/-- A machine after a step. -/
structure Snapshot where
  stack : List Shown
  peak : Nat
  returns : List ShownFrame
  returnPeak : Nat
  interpreting : Bool
  underConstruction : Option String
  last : Option String
  words : Nat
  finished : Bool
  location : Option Location
  /-- What the step wrote. -/
  output : String
  outcome : Outcome
  /-- What native words did during the step, oldest first. -/
  records : List Record
  /-- Events of the step, oldest first. -/
  events : List Event

/-- Look at a machine after a step. -/
def snapshot (m : Driven) (outcome : Outcome) : Snapshot where
  stack := showStack m
  peak := m.data.peak
  returns := m.returns.toList.map (showFrame m)
  returnPeak := m.returns.peak
  interpreting := m.interpreting
  underConstruction := m.underConstruction.map Handle.name
  last := m.dictionary.last.map Handle.name
  words := m.dictionary.size
  finished := m.finished
  location := m.location
  output := m.output.written
  outcome := outcome
  records := m.host.records.reverse
  events := m.events.reverse

/-- Clear what belongs to one step only. -/
def turnPage (m : Driven) : Driven :=
  { m with
    output := m.output.take.2
    events := []
    host := { m.host with records := [] } }

/-- How a session is set up. -/
structure Setup where
  watcher : Option Level
  output : Sink
  files : Files

/-- The machine that a session starts with. -/
def Setup.machine (s : Setup) : Driven :=
  .new s.output s.watcher ⟨[], none⟩

/-- Take the steps of a session one after the other.  Whatever comes of a
step the next one is taken; only an allowance that is used up ends the
transcript early. -/
def transcribe (files : Files) (fuel : Nat) :
    List Step → Driven → List Snapshot
  | [], _ => []
  | step :: rest, m =>
    match attempt (perform files fuel step.command) m with
    | .ok outcome m =>
      snapshot m outcome :: transcribe files fuel rest (turnPage m)
    | .error _ _ => []

/-- The events of setting up a machine, and the snapshots of a session on
it. -/
def transcript (setup : Setup) (fuel : Nat) (steps : List Step) :
    List Event × List Snapshot :=
  let m := setup.machine
  (m.events.reverse, transcribe setup.files fuel steps (turnPage m))

end Forth.Session
