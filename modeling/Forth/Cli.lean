import Forth.Interpreter

/-!
# The command line

The program runs a script, or, without one, what it reads from its standard
input, with a prompt before each line.  A file can be loaded before that.
The arguments after the script are there for it through the word `args`.

Options are recognised before the script and right after it.  From the first
argument of the script on, everything belongs to the script, and after `--`
nothing is an option.

A failure in a script ends the program; one in a line of standard input is
announced, and the next line is read.
-/

namespace Forth.Cli

/-- What the program was asked for. -/
structure Invocation where
  script : Option String
  arguments : List String
  preload : Option String
  threaded : Bool
deriving DecidableEq, Repr

/-- What a list of arguments amounts to. -/
inductive Request where
  | version
  | misuse
  | start (invocation : Invocation)
deriving DecidableEq, Repr

/-- The invocation without arguments. -/
def Invocation.plain : Invocation := ⟨none, [], none, false⟩

/-- Whether an argument has the form of an option. -/
def isOption (argument : String) : Bool :=
  match argument.toList with
  | '-' :: _ :: _ => true
  | _ => false

/-- Take arguments that can not be options. -/
def Invocation.withPositional (i : Invocation) :
    List String → Invocation
  | [] => i
  | a :: rest =>
    match i.script with
    | none => { i with script := some a, arguments := rest }
    | some _ => { i with arguments := a :: rest }

/-- The text behind a start, if a text has that start and goes on. -/
def valueAfter? (start argument : String) : Option String :=
  if start.toList.isPrefixOf argument.toList then
    match argument.toList.drop start.length with
    | [] => none
    | value => some (String.ofList value)
  else none

/-- Set the file that is loaded first; it can be set once. -/
def Invocation.withPreload? (i : Invocation) (path : String) :
    Option Invocation :=
  if i.preload.isNone ∧ path ≠ "" then some { i with preload := some path }
  else none

/-- Make sense of the arguments that follow those already taken in. -/
def parseFrom (i : Invocation) : List String → Request
  | [] => .start i
  | a :: rest =>
    if a = "--" then .start (i.withPositional rest)
    else if a = "--version" ∨ a = "-V" then .version
    else if a = "--threaded" then
      if i.threaded then .misuse
      else parseFrom { i with threaded := true } rest
    else if a = "--prelude" ∨ a = "-p" then
      match rest with
      | [] => .misuse
      | path :: rest =>
        if isOption path then .misuse
        else
          match i.withPreload? path with
          | some i => parseFrom i rest
          | none => .misuse
    else if isOption a then
      let joined := (valueAfter? "--prelude=" a).or
        ((valueAfter? "-p=" a).or (valueAfter? "-p" a))
      match joined.bind i.withPreload? with
      | some i => parseFrom i rest
      | none => .misuse
    else
      match i.script with
      | none =>
        if a = "" then .misuse
        else parseFrom { i with script := some a } rest
      | some _ => .start { i with arguments := a :: rest }

/-- Make sense of a command line. -/
def parse (arguments : List String) : Request :=
  parseFrom .plain arguments

/-- The files, standard input and settings that the program finds. -/
structure World where
  files : Files
  input : ByteArray
  /-- The file to load first if the command line names none. -/
  preload : Option String

/-- What the program leaves behind. -/
structure Outcome where
  output : String
  errors : String
  code : UInt32
deriving DecidableEq, Repr

/-- The embedding in the program: the only word it supplies is made of the
arguments of the script. -/
def embedding : Embedding := ⟨List String, Unit⟩

/-- Push arguments and their number. -/
def pushArguments (arguments : List String) : Run embedding Unit := do
  for a in arguments do
    (Act.push (.string a)).run
  (Act.push (.ofNat arguments.length)).run

/-- The entry of the word that gives a script its arguments. -/
def argsEntry : Entry :=
  .normal "args"
    "Push the script's arguments followed by how many there are."
    " -- arguments... count"

/-- What native words do in the program. -/
def primitives : Primitives embedding := .standard pushArguments

/-- The machine of the program. -/
def machine (arguments : List String) : Machine embedding :=
  let m := Machine.new .unlimited none ()
  (m.addNative argsEntry (.host arguments)).2

/-- The input of the main run and what is done about failures in it. -/
def mainInput (i : Invocation) (world : World) :
    Except Fault (Source × OnError) :=
  match i.script with
  | none => .ok (.ofBytes "<repl>" world.input (some "> "), .resume)
  | some path =>
    match world.files.find? path with
    | none => .error (unreadable path missingText)
    | some bytes => .ok (.ofBytes path bytes none, .stop)

/-- Load what is to be loaded first, then run the script or the standard
input. -/
def session (i : Invocation) (world : World) (fuel : Nat) :
    Script embedding Unit := do
  match i.preload.or world.preload with
  | none => pure ()
  | some path => Machine.processFile primitives fuel world.files path
  match mainInput i world with
  | .error f => throw (.failed (.ofFault f))
  | .ok (input, policy) =>
    modify fun m => { m with input := input }
    if i.threaded then Machine.boot primitives policy fuel
    else Machine.interpret primitives policy fuel

/-- What is left behind by a run that ended with a machine, announcing the
failures that were passed over and the one that ended it. -/
def Outcome.ofRun (m : Machine embedding) (last : Option Report) : Outcome :=
  let reports := m.reports.reverse ++ last.toList
  { output := m.output.written
    errors := String.join (reports.map Report.announcement)
    code := if last.isSome then 1 else 0 }

/-- The name and version of the program. -/
def versionText : String := "tforth 0.1.0\n"

/-- Run the program. -/
def run (arguments : List String) (world : World) (fuel : Nat) : Outcome :=
  match parse arguments with
  | .version => ⟨versionText, "", 0⟩
  | .misuse => ⟨"", "", 2⟩
  | .start i =>
    match session i world fuel (machine i.arguments) with
    | .ok () m => .ofRun m none
    | .error (.failed report) m => .ofRun m (some report)
    | .error .starved m => .ofRun m none

end Forth.Cli
