import Forth.Session.Command

/-!
# Carrying out commands

`perform` carries out a command.  The words that a session supplies carry out
their bodies with a smaller allowance, which is why a body can contain any
command, including ones that execute that very word again.

A failing command leaves the machine as the failure found it.  Only the
commands that run sources recover by themselves; for the others the session
remembers the cause until it is asked to recover.
-/

namespace Forth.Session

/-! ## Showing what is in a machine -/

/-- A value as a machine shows it. -/
def showValue (m : Driven) (v : Value) : Shown :=
  ⟨v, match v with
    | .word w => m.dictionary.isCurrent w
    | _ => false⟩

/-- A cell as a machine shows it. -/
def showCell (m : Driven) (c : Cell) : ShownCell :=
  ⟨c, (showValue m c.toValue).current⟩

/-- A frame as a machine shows it. -/
def showFrame (m : Driven) : Frame → ShownFrame
  | .call c => .call c.text
  | .value v => .value (showValue m v)

/-- The data stack, bottom first. -/
def showStack (m : Driven) : List Shown := m.data.toList.map (showValue m)

/-- A definition as a machine shows it. -/
def showWord (m : Driven) (h : Handle) : Reply :=
  match m.dictionary.word? h with
  | none => .nothing
  | some w =>
    .word
      { name := w.name
        immediate := w.immediate
        length := w.length
        description := w.description
        signature := w.signature
        location := if w.isNative then none else some w.location
        cells := w.cells?.map fun cells => cells.toList.map (showCell m) }

/-! ## Ways to answer -/

/-- Do an action and answer what it gives, as the machine shows it then. -/
def answer {α : Type} (x : Act embedding α) (reply : Driven → α → Reply) :
    Talk Reply := fun m =>
  match x m with
  | .ok a m => .ok (reply m a) m
  | .error f m => .error (.failed (.fault f)) m

/-- Do an action that answers nothing. -/
def act (x : Act embedding Unit) : Talk Reply :=
  answer x fun _ _ => .nothing

/-- Do something that can not fail and answers nothing. -/
def change (f : Driven → Driven) : Talk Reply := act (modify f)

/-- Answer from the machine as it is. -/
def ask (reply : Driven → Reply) : Talk Reply := return reply (← get)

/-- Carry out something that fails with a fault. -/
def run (x : Run embedding Unit) (reply : Reply) : Talk Reply := do
  mapHalt (Halt.map Failure.fault) x
  return reply

/-- Carry out something that fails with a report. -/
def script (x : Script embedding Unit) : Talk Reply := do
  mapHalt (Halt.map Failure.report) x
  return .nothing

/-- Go on with the current definition of a name, if there is one. -/
def withWord (name : String) (next : Handle → Talk Reply) : Talk Reply := do
  match (← get).dictionary.lookup name with
  | none => return .nothing
  | some h => next h

/-- Go on with the value of an operand, if it has one. -/
def withValue (v : Operand) (next : Value → Talk Reply) : Talk Reply :=
  match v with
  | .value v => next v
  | .named name => withWord name fun h => next (.word h)

/-! ## Commands that need more than an action -/

/-- Process the tokens of the input one by one until none is left or the
machine is told to stop; newest result first. -/
def processEach (p : Primitives embedding) :
    Nat → List Progress → Talk (List Progress)
  | 0, _ => starve
  | fuel + 1, done => fun m =>
    if m.finished then .ok done m
    else
      match m.nextToken with
      | (none, m) => .ok done m
      | (some t, m) =>
        match Machine.processToken p fuel t m with
        | .ok () m =>
          processEach p fuel (⟨t.text, showStack m, none⟩ :: done) m
        | .error .starved m => .error .starved m
        | .error (.failed f) m =>
          let (report, m) := m.recover f
          processEach p fuel (⟨t.text, showStack m, some report⟩ :: done) m

/-- Process the tokens of a source one by one and put the input back. -/
def each (p : Primitives embedding) (fuel : Nat) (source : Source) :
    Talk Reply := do
  let before := (← get).input
  modify fun m => { m with input := source }
  let done ← processEach p fuel []
  modify fun m => { m with input := before }
  return .progress done.reverse

/-- Recover from the failure that is remembered, and forget it. -/
def recover (m : Driven) : Report × Driven :=
  let f := m.host.remembered.getD .endOfInput
  { m with host := { m.host with remembered := none } }.recover f

/-- Find out what comes of a command, and remember a failure. -/
def attempt (x : Talk Reply) : Talk Outcome := fun m =>
  match x m with
  | .ok reply m => .ok (.ok reply) m
  | .error .starved m => .error .starved m
  | .error (.failed e) m =>
    .ok (.error e)
      { m with host := { m.host with remembered := some e.cause } }

/-- Carry out the body of a native word.  The first failure that is not
passed over ends it. -/
def runBody (perform : Command → Talk Reply) :
    List Step → Run embedding Unit
  | [] => return
  | step :: rest => do
    let outcome ←
      mapHalt (Halt.map Failure.cause) (attempt (perform step.command))
    modify fun m =>
      { m with
        host := { m.host with
          records := ⟨step.label, outcome⟩ :: m.host.records } }
    match outcome, step.catches with
    | .error e, false => throw (.failed e.cause)
    | _, _ => runBody perform rest

/-! ## All commands -/

/-- Carry out a command. -/
def perform (files : Files) : Nat → Command → Talk Reply
  | 0, _ => starve
  | fuel + 1, command =>
    let p : Primitives embedding :=
      .standard (runBody (perform files fuel))
    match command with
    | .source path text => script (Machine.processSource p fuel path text)
    | .file path => script (Machine.processFile p fuel files path)
    | .input source => change fun m => { m with input := source }
    | .interpret policy => script (Machine.interpret p policy fuel)
    | .boot policy => script (Machine.boot p policy fuel)
    | .each source => each p fuel source
    | .token text =>
      run (Machine.processToken p fuel ⟨.unspecified, text⟩) .nothing
    | .process v =>
      withValue v fun v => run (Machine.processValue p fuel v) .nothing
    | .execute name =>
      withWord name fun h => run (Machine.execute p fuel h) (.text "ran")
    | .executeBuiltin name =>
      run (do Machine.execute p fuel (← (Act.builtin name).run))
        (.text "ran")
    | .nextToken =>
      answer Act.nextToken? fun _ t => (t.map Reply.token).getD .nothing
    | .nextTokenText => answer Act.nextTokenText fun _ s => .text s
    | .nextChar =>
      answer Act.nextChar? fun _ c =>
        (c.map fun c => Reply.text c.toString).getD .nothing
    | .push v => withValue v fun v => act (Act.push v)
    | .pop => answer Act.pop fun m v => .value (showValue m v)
    | .peek n => answer (Act.peek n) fun m v => .value (showValue m v)
    | .popInt => answer Act.popInt fun _ n => .text (toString n.toInt)
    | .popNat => answer Act.popNat fun _ n => .text (toString n)
    | .popTruth => answer Act.popTruth fun _ b => .flag b
    | .popText => answer Act.popText fun _ s => .text s
    | .popWord => answer Act.popWord showWord
    | .cursor =>
      ask fun m => (m.cursor.map fun c => Reply.text c.text).getD .nothing
    | .fetchOperand =>
      answer Act.fetchOperand fun m c => .cell (showCell m c)
    | .jump offset => act (Act.jump offset)
    | .exitThread => act Act.exitThread
    | .pushFrame v => withValue v fun v => act (Act.pushFrame (.value v))
    | .popFrame => answer Act.popFrame fun m f => .frame (showFrame m f)
    | .callTrace => ask fun m => .calls m.callTrace
    | .executing => ask fun m => .text m.executingName
    | .find name => withWord name fun h => ask fun m => showWord m h
    | .builtin name => answer (Act.builtin name) showWord
    | .assemble name text immediate =>
      answer (Act.perform fun m => m.assemble name text immediate) showWord
    | .native entry body =>
      answer (Act.perform fun m => m.addNative entry (.host body)) showWord
    | .append name v =>
      withWord name fun h => withValue v fun v =>
        answer (Act.append h (.ofValue v)) fun _ _ => .text "appended"
    | .mark name =>
      withWord name fun h =>
        answer (Act.markImmediate h) fun _ _ => .text "marked"
    | .last =>
      ask fun m =>
        (m.dictionary.last.map fun h => Reply.text h.name).getD .nothing
    | .listing => ask fun m => .text m.dictionary.listing
    | .decompile name =>
      withWord name fun h => ask fun m => .texts (m.decompile h)
    | .definition name =>
      withWord name fun h => ask fun m => .text (m.definitionText h)
    | .dump name => withWord name fun h => ask fun m => .text (m.dump h)
    | .setInterpreting interpreting => act (Act.setInterpreting interpreting)
    | .underConstruction => answer Act.underConstruction showWord
    | .create name => answer (Act.createWord name) showWord
    | .compile v => withValue v fun v => act (Act.compile (.ofValue v))
    | .setVariable name v =>
      withValue v fun v => act (Act.setVariable name v)
    | .readVariable name =>
      answer (Act.findVariable name) fun m v =>
        (v.map fun v => Reply.value (showValue m v)).getD .nothing
    | .write text => act (Act.write text)
    | .finish => change Machine.finish
    | .reset => change Machine.resetRunState
    | .recover =>
      answer (Act.perform recover) fun _ report => .report report

end Forth.Session
