import Forth.Interpreter
import Forth.Proofs.Congruence
import Forth.Proofs.Tokens
import Mathlib.Logic.Relation

/-!
# How a machine changes

What a quiet built-in word does to its machine is a row of elementary
changes, **touches**.  Most of them concern values, variables, mode, input
and output only.  Definitions change in three ways: a cell is appended to the
word under construction, that word is marked as immediate, or an empty word
is created and put under construction.

Whatever else runs, natively or as a thread, adds nothing but changes of the
control state: the return stack, the running thread and who is at work.  So
everything that the inner and the outer interpreters do is a row of touches
and control changes, whether it ends well, fails or starves.

Main statements: `Builtin.touches_act`, `Machine.execute_grows`,
`Machine.interpret_grows` and `Machine.boot_grows`.  An invariant of touches
and control changes is an invariant of everything.
-/

namespace Forth

open Relation

variable {E : Embedding} {ε α β : Type}

namespace Machine

/-- One elementary change that a quiet word can make. -/
inductive Touch : Machine E → Machine E → Prop
  | aside (m : Machine E) (data : Stack Value) (memory : Table Value)
      (interpreting : Bool) (location : Option Location) (input : Source)
      (output : Sink) (events : List Event) :
      Touch m { m with
        data := data
        memory := memory
        interpreting := interpreting
        location := location
        input := input
        output := output
        events := events }
  | append {m : Machine E} {h : Handle} {c : Cell} {d : Dictionary E}
      (under : m.underConstruction = some h)
      (grown : m.dictionary.append h c = .ok d) :
      Touch m { m with dictionary := d }
  | mark {m : Machine E} {h : Handle} (under : m.underConstruction = some h) :
      Touch m { m with dictionary := m.dictionary.markImmediate h }
  | create (m : Machine E) (name : String) (location : Location) :
      Touch m { m with
        dictionary := (m.dictionary.define (.ofCells name location #[])).2
        underConstruction :=
          some (m.dictionary.define (.ofCells name location #[])).1 }

/-- One elementary change that anything at all can make. -/
inductive Grow : Machine E → Machine E → Prop
  | touch {m t : Machine E} (h : Touch m t) : Grow m t
  | control (m : Machine E) (returns : Stack Frame) (cursor : Option Cursor)
      (base : Nat) (executing : Option Handle) (blame : Option CallTrace)
      (finished : Bool) (reports : List Report) :
      Grow m { m with
        returns := returns
        cursor := cursor
        base := base
        executing := executing
        blame := blame
        finished := finished
        reports := reports }

/-- Rows of touches. -/
abbrev Touches : Machine E → Machine E → Prop := ReflTransGen Touch

/-- Rows of touches and control changes. -/
abbrev Grows : Machine E → Machine E → Prop := ReflTransGen Grow

theorem Touches.grows {m t : Machine E} (h : Touches m t) : Grows m t :=
  ReflTransGen.mono (fun _ _ => .touch) _ _ h

/-! ## The services of the machine -/

/-- Recording an event changes the events only. -/
theorem record_eq (m : Machine E) (e : Event) :
    m.record e = { m with events := (m.record e).events } := by
  unfold record
  split
  · rfl
  · rfl

/-- Tracing a step changes the events only. -/
theorem traceStep_eq (m : Machine E) (c : Cursor) (cell : Cell) :
    m.traceStep c cell =
      { m with events := (m.traceStep c cell).events } := by
  unfold traceStep
  split
  · exact record_eq m _
  · rfl

/-- Turning to a mode changes the mode and the events. -/
theorem setInterpreting_eq (m : Machine E) (mode : Bool) :
    m.setInterpreting mode =
      { m with
        events := (m.setInterpreting mode).events
        interpreting := mode } := by
  unfold setInterpreting
  split
  · rfl
  · rw [record_eq]

/-- Keeping whom to blame changes nothing else. -/
theorem captureBlame_eq (m : Machine E) :
    m.captureBlame = { m with blame := m.captureBlame.blame } := by
  unfold captureBlame
  split
  · rfl
  · rfl

/-- Forgetting whom to blame changes nothing else. -/
theorem forgetBlame_eq (m : Machine E) :
    m.forgetBlame = { m with blame := m.forgetBlame.blame } := by
  unfold forgetBlame
  split
  · rfl
  · rfl

/-- Heeding notices changes output and events only. -/
theorem foldl_heed_eq (notices : List Notice) (m : Machine E) :
    notices.foldl heed m =
      { m with
        output := (notices.foldl heed m).output
        events := (notices.foldl heed m).events } := by
  induction notices generalizing m with
  | nil => rfl
  | cons n notices ih =>
    rw [List.foldl_cons, ih]
    cases n with
    | prompted text => rfl
    | readFailed =>
      rw [heed, record_eq]

/-- Going on with other input changes input, output and events only. -/
theorem withInput_eq (m : Machine E) (input : Source) :
    m.withInput input =
      { m with
        input := input.takeNotices.2
        output := (m.withInput input).output
        events := (m.withInput input).events } := by
  unfold withInput
  exact foldl_heed_eq _ _

/-- With a text that is there as a whole there is nothing to heed. -/
theorem withInput_of_whole {m : Machine E} {input : Source}
    (whole : input.feed = .whole) :
    m.withInput input = { m with input := input } := by
  unfold withInput Source.takeNotices
  rw [whole]
  rfl

/-- A token that is left in a text is read, wherever it stands. -/
theorem nextToken_of_spells {m : Machine E} {text : String}
    {texts : List String} (whole : m.input.feed = .whole)
    (spells : Spells m.input.unread (text :: texts)) :
    ∃ token rest, m.nextToken = (some token,
        { m with input := rest, location := some token.location }) ∧
      token.text = text ∧ rest.feed = .whole ∧ Spells rest.unread texts := by
  obtain ⟨token, rest, read, htext, whole', spells'⟩ :=
    Source.nextToken_of_spells whole spells
  refine ⟨token, rest, ?_, htext, whole', spells'⟩
  unfold nextToken
  rw [read]
  dsimp only
  rw [withInput_of_whole whole']

/-- With no token left none is read. -/
theorem nextToken_of_spells_nil {m : Machine E}
    (whole : m.input.feed = .whole) (spells : Spells m.input.unread []) :
    ∃ rest, m.nextToken = (none, { m with input := rest }) ∧
      rest.feed = .whole ∧ rest.unread = [] := by
  obtain ⟨rest, read, whole'⟩ := Source.nextToken_of_spells_nil whole spells
  refine ⟨rest, ?_, whole', Source.unread_of_nextToken read⟩
  unfold nextToken
  rw [read]
  dsimp only
  rw [withInput_of_whole whole']

/-- Other input is a touch. -/
theorem touch_withInput (m : Machine E) (input : Source) :
    Touch m (m.withInput input) := by
  rw [withInput_eq]
  exact .aside m _ _ _ _ _ _ _

/-- An event is a touch. -/
theorem touch_record (m : Machine E) (e : Event) : Touch m (m.record e) := by
  rw [record_eq]
  exact .aside m _ _ _ _ _ _ _

/-- Reading a token. -/
theorem touches_nextToken (m : Machine E) :
    Touches m m.nextToken.2 := by
  unfold nextToken
  split
  · exact .single (touch_withInput _ _)
  · exact .tail (.single (touch_withInput _ _)) (.aside _ _ _ _ _ _ _ _)

/-- Skipping a comment. -/
theorem touches_skipComment (limit : Nat) (m : Machine E) :
    Touches m (CompileWord.skipComment limit m) := by
  induction limit generalizing m with
  | zero => exact .refl
  | succ limit ih =>
    have read := touches_nextToken m
    unfold CompileWord.skipComment
    split
    · next after hread => rwa [hread] at read
    · next t after hread =>
      rw [hread] at read
      split
      · exact read
      · exact read.trans (ih after)

/-- Turning to another mode. -/
theorem touches_setInterpreting (m : Machine E) (b : Bool) :
    Touches m (m.setInterpreting b) := by
  unfold setInterpreting
  dsimp only
  split
  · exact .single (.aside m _ _ _ _ _ _ _)
  · exact .tail (.single (touch_record m _)) (.aside _ _ _ _ _ _ _ _)

end Machine

namespace Act

open Machine

/-- Taking a value. -/
theorem touches_pop (m : Machine E) : Touches m (leftBy (pop m)) := by
  rw [pop_apply]
  split
  · exact .refl
  · exact .single (.aside m _ _ _ _ _ _ _)

/-- Looking at a value. -/
theorem touches_peek (n : Nat) (m : Machine E) :
    Touches m (leftBy (peek n m)) := by
  rw [peek_apply]
  split
  · exact .refl
  · exact .refl

/-- Writing. -/
theorem touches_write (text : String) (m : Machine E) :
    Touches m (leftBy (write text m)) := by
  rw [write_apply]
  split
  · exact .single (.aside m _ _ _ _ _ _ _)
  · exact .refl

/-- Compiling a cell. -/
theorem touches_compile (c : Cell) (m : Machine E) :
    Touches m (leftBy (compile c m)) := by
  rw [compile_apply]
  split
  · exact .refl
  · next h under =>
    split
    · exact .refl
    · next d grown => exact .single (.append under grown)

/-- Marking the word under construction. -/
theorem touches_immediate (m : Machine E) :
    Touches m (leftBy (CompileWord.act .immediate m)) := by
  rw [CompileWord.immediate_apply]
  split
  · exact .refl
  · next h under => exact .single (.mark under)

/-- Creating a word. -/
theorem touches_createWord (name : String) (m : Machine E) :
    Touches m (leftBy (createWord name m)) :=
  .tail (.single (touch_record m (.creating name)))
    (.create _ name (m.record (.creating name)).definitionSite)

/-- Letting a finished definition be known. -/
theorem touches_announce (m : Machine E) :
    Touches m (leftBy (CompileWord.announce m)) := by
  rw [CompileWord.announce_apply]
  split
  · split
    · exact .refl
    · exact .single (touch_record m _)
  · exact .refl

/-- What is known of a machine that has only been touched since a moment. -/
def Since (m₀ m t : Machine E) : Prop := t = m ∧ Touches m₀ m

/-- An action that only touches the machine follows itself. -/
theorem follows_since {m₀ : Machine E} {x : EStateM ε (Machine E) α}
    (h : ∀ m, Touches m (leftBy (x m))) :
    Follows (Since m₀) (fun _ => False) x x := by
  rintro m t ⟨rfl, since⟩
  have after := since.trans (h t)
  revert after
  cases x t with
  | ok a m => exact fun after => .ok ⟨rfl, after⟩
  | error e m => exact fun after => .error ⟨rfl, after⟩

/-- All services of the machine only touch it. -/
theorem congruence_since (m₀ : Machine E) :
    Congruence (Since m₀) fun _ => False where
  executingName := fun ⟨h, _⟩ => by rw [h]
  interpreting := fun ⟨h, _⟩ => by rw [h]
  names := fun ⟨h, _⟩ => by rw [h]
  isImmediate := fun ⟨h, _⟩ => by rw [h]
  listing := fun ⟨h, _⟩ => by rw [h]
  definitionText := fun ⟨h, _⟩ => by rw [h]
  builtins := fun ⟨h, _⟩ => by rw [h]
  memory := fun ⟨h, _⟩ => by rw [h]
  push := fun _ => follows_since fun m => .single (.aside m _ _ _ _ _ _ _)
  pop := follows_since touches_pop
  peek := fun n => follows_since (touches_peek n)
  tokenText := follows_since touches_nextToken
  nextChar := follows_since fun m => .single (touch_withInput m _)
  comment := follows_since fun m => touches_skipComment _ m
  write := fun text => follows_since (touches_write text)
  compile := fun c => follows_since (touches_compile c)
  markImmediate := follows_since touches_immediate
  setInterpreting := fun b => follows_since fun m =>
    touches_setInterpreting m b
  createWord := fun name => follows_since (touches_createWord name)
  announce := follows_since touches_announce
  setVariable := fun _ _ => follows_since fun m =>
    .single (.aside m _ _ _ _ _ _ _)

end Act

/-- **A quiet word only touches its machine**, also when it fails. -/
theorem Builtin.touches_act (call : Handle → Run E Unit) {b : Builtin}
    (quiet : b.isQuiet = true) (m : Machine E) :
    Machine.Touches m (leftBy (b.act call m)) := by
  have follows := (Act.congruence_since m).act (fun _ _ h => by rw [h.1])
    (fun _ => False) (fun _ never => never) call call quiet m m ⟨rfl, .refl⟩
  generalize b.act call m = r at follows
  cases follows with
  | ok related => exact related.2
  | error related => exact related.2
  | excused never => exact never.elim

/-! ## Everything that runs -/

/-- A computation that only lets the machine grow, however it ends. -/
def Growing (x : EStateM ε (Machine E) α) : Prop :=
  ∀ m, Machine.Grows m (leftBy (x m))

namespace Growing

open Machine

/-- One after the other. -/
theorem bind {x : EStateM ε (Machine E) α}
    {f : α → EStateM ε (Machine E) β} (first : Growing x)
    (next : ∀ a, Growing (f a)) : Growing (x >>= f) := by
  intro m
  have hfirst := first m
  simp only [Bind.bind, EStateM.bind]
  generalize x m = r at hfirst
  cases r with
  | ok a after => exact hfirst.trans (next a after)
  | error e after => exact hfirst

/-- A computation that does nothing. -/
theorem pure (a : α) : Growing (Pure.pure a : EStateM ε (Machine E) α) :=
  fun _ => .refl

/-- A computation that fails at once. -/
theorem throw (e : ε) :
    Growing (MonadExcept.throw e : EStateM ε (Machine E) α) :=
  fun _ => .refl

/-- An action among computations that may starve. -/
theorem run {x : Act E α} (h : Growing x) : Growing x.run := by
  intro m
  have hx := h m
  simp only [Act.run, mapHalt]
  generalize x m = r at hx
  cases r <;> exact hx

/-- A change of values. -/
theorem push (v : Value) : Growing (Act.push v : Act E Unit) :=
  fun m => .single (.touch (.aside m _ _ _ _ _ _ _))

theorem pop : Growing (Act.pop : Act E Value) :=
  fun m => (Act.touches_pop m).grows

/-- Taking a word. -/
theorem popWord : Growing (Act.popWord : Act E Handle) := by
  refine pop.bind fun v => ?_
  cases v with
  | word w => exact pure _
  | _ => exact throw _

/-- Taking a frame. -/
theorem popFrame : Growing (Act.popFrame : Act E Frame) := by
  intro m
  rw [Act.popFrame_apply]
  split
  · exact .refl
  · exact .single (.control m _ _ _ _ _ _ _)

/-- Putting a frame. -/
theorem pushFrame (f : Frame) : Growing (Act.pushFrame f : Act E Unit) :=
  fun m => .single (.control m _ _ _ _ _ _ _)

/-- Reading an operand. -/
theorem fetchOperand : Growing (Act.fetchOperand : Act E Cell) := by
  intro m
  rw [Act.fetchOperand_apply]
  split
  · exact .refl
  · split
    · exact .refl
    · exact .single (.control m _ _ _ _ _ _ _)

/-- Jumping. -/
theorem jump (offset : Int64) : Growing (Act.jump offset : Act E Unit) := by
  intro m
  rw [Act.jump_apply]
  split
  · exact .refl
  · split
    · exact .refl
    · exact .single (.control m _ _ _ _ _ _ _)

/-- Returning from a thread. -/
theorem exitThread : Growing (Act.exitThread : Act E Unit) := by
  intro m
  rw [Act.exitThread_apply]
  split
  · exact .refl
  · split
    · exact .single (.control m _ _ _ _ _ _ _)
    · split
      · exact .refl
      · exact .single (.control m _ _ _ _ _ _ _)
      · exact .single (.control m _ _ _ _ _ _ _)

/-- Taking back a parked value. -/
theorem takeParked : Growing (StackWord.takeParked : Act E Value) := by
  refine popFrame.bind fun f => ?_
  cases f with
  | value v => exact pure _
  | call c => exact (pushFrame _).bind fun _ => throw _

/-- Reading the offset of a branch. -/
theorem fetchOffset : Growing (ThreadWord.fetchOffset : Act E Int64) := by
  refine fetchOperand.bind fun c => ?_
  split
  · exact pure _
  · exact fun _ => .refl

/-- Whatever a built-in word does, if executing words only lets the machine
grow. -/
theorem act {call : Handle → Run E Unit} (h : ∀ w, Growing (call w))
    (b : Builtin) : Growing (b.act call) := by
  by_cases quiet : b.isQuiet = true
  · exact fun m => (b.touches_act call quiet m).grows
  · cases b with
    | stack w =>
      refine run ?_
      cases w with
      | maxDepth => exact fun m => push _ m
      | toReturn => exact pop.bind fun _ => pushFrame _
      | fromReturn => exact takeParked.bind fun _ => push _
      | dropReturn =>
        exact takeParked.bind fun _ => (push _).bind fun _ =>
          pop.bind fun _ => pure _
      | _ => exact absurd rfl quiet
    | thread w =>
      cases w with
      | lit | tick => exact run (fetchOperand.bind fun _ => push _)
      | branch => exact run (fetchOffset.bind fun _ => jump _)
      | zeroBranch =>
        refine run ((pop.bind fun _ => pure _).bind fun condition =>
          fetchOffset.bind fun offset => ?_)
        cases condition with
        | true => exact pure _
        | false => exact jump _
      | exit => exact run exitThread
      | exec => exact (run popWord).bind h
      | bye => exact fun m => .single (.control m _ _ _ _ _ _ _)
    | _ => exact absurd rfl quiet

/-- A native word with itself down as the one at work. -/
theorem invoke (w : Handle) {x : Run E Unit} (h : Growing x) :
    Growing (Machine.invoke w x) := by
  intro m
  have entered : Grows m { m with executing := some w } :=
    .single (.control m _ _ _ _ _ _ _)
  have done := entered.trans (h { m with executing := some w })
  unfold Machine.invoke
  generalize x { m with executing := some w } = r at done
  cases r with
  | ok a after => exact done.tail (.control after _ _ _ _ _ _ _)
  | error e after =>
    cases e with
    | failed f =>
      refine done.tail ?_
      dsimp only [leftBy]
      rw [captureBlame_eq]
      exact .control after _ _ _ _ _ _ _
    | starved => exact done

/-- A run of a thread. -/
theorem startRun (w : Handle) {x : Run E Unit} (h : Growing x) :
    Growing (Machine.startRun w x) := by
  intro m
  have entered : Grows m
      { m with base := m.returns.depth, cursor := some (.start w) } :=
    .single (.control m _ _ _ _ _ _ _)
  have done := entered.trans (h _)
  unfold Machine.startRun
  dsimp only
  generalize x { m with base := m.returns.depth, cursor := some (.start w) }
    = r at done
  cases r with
  | ok a after => exact done.tail (.control after _ _ _ _ _ _ _)
  | error e after =>
    cases e with
    | failed f =>
      refine done.tail ?_
      dsimp only [leftBy]
      rw [captureBlame_eq]
      exact .control after _ _ _ _ _ _ _
    | starved => exact done

/-- One turn of the loop. -/
theorem step {call : Handle → Run E Unit} (h : ∀ w, Growing (call w))
    (c : Cursor) : Growing (Machine.step call c) := by
  intro m
  unfold Machine.step
  have look (f : Machine E → Run E Unit) : (get >>= f) m = f m m := rfl
  rw [look]
  split
  · exact run exitThread m
  · refine (run fetchOperand).bind (fun cell => ?_) m
    have traced : Growing
        (modify fun m => m.traceStep c cell : Run E Unit) := by
      intro m
      show Grows m (m.traceStep c cell)
      rw [traceStep_eq]
      exact .single (.touch (.aside m _ _ _ _ _ _ _))
    refine traced.bind fun _ => ?_
    cases cell with
    | word w => exact h w
    | literal v => exact run (push v)

end Growing

namespace Machine

/-- Forgetting whom to blame is a control change. -/
theorem grows_forgetBlame (m : Machine E) : Grows m m.forgetBlame := by
  rw [forgetBlame_eq]
  exact .single (.control m _ _ _ _ _ _ _)

/-- Executing a word and carrying on a thread, both at once since they call
each other. -/
theorem execute_loop_grow (n : Nat) :
    (∀ w, Growing (execute Primitives.pure n w)) ∧
      Growing (loop Primitives.pure n) := by
  induction n with
  | zero => exact ⟨fun _ _ => .refl, fun _ => .refl⟩
  | succ n ih =>
    obtain ⟨executeGrows, loopGrows⟩ := ih
    refine ⟨fun w m => ?_, fun m => ?_⟩
    · refine (grows_forgetBlame m).trans ?_
      rw [execute]
      dsimp only
      split
      · exact Growing.invoke w (Growing.act executeGrows _) _
      · next code _ => exact code.elim
      · split
        · exact .single (.control _ _ _ _ _ _ _ _)
        · exact Growing.startRun w loopGrows _
    · rw [loop]
      dsimp only
      split
      · exact .refl
      · next c _ =>
        have turned := Growing.step executeGrows c m
        generalize step (execute Primitives.pure n) c m = r at turned
        cases r with
        | ok a after => exact turned.trans (loopGrows after)
        | error e after => exact turned

/-- **Executing a word only lets the machine grow.** -/
theorem execute_grows (n : Nat) (w : Handle) :
    Growing (execute Primitives.pure n w) :=
  (execute_loop_grow n).1 w

/-- Interpreting or compiling a value. -/
theorem processValue_grows (n : Nat) (v : Value) :
    Growing (processValue Primitives.pure n v) := by
  have compiles (c : Cell) : Growing (Act.compile c : Act .none Unit) :=
    fun m => (Act.touches_compile c m).grows
  have looksUp : Growing (Act.builtin "lit" : Act .none Handle) := by
    intro m
    rw [Act.builtin_apply]
    split
    · exact .refl
    · exact .refl
  have literal (v : Value) (m : Machine .none) : Grows m (leftBy
      ((if m.interpreting = true then (Act.push v).run m
        else (do
          let lit ← Act.builtin "lit"
          Act.compile (.word lit)
          Act.compile (.literal v) : Act .none Unit).run m))) := by
    split
    · exact Growing.run (Growing.push v) m
    · exact Growing.run (looksUp.bind fun _ => (compiles _).bind fun _ =>
        compiles _) m
  intro m
  unfold processValue
  split
  · split
    · exact execute_grows n _ m
    · exact Growing.run (compiles _) m
  · exact literal v m

/-- Interpreting or compiling a token. -/
theorem processToken_grows (n : Nat) (t : Token) :
    Growing (processToken Primitives.pure n t) :=
  fun m => processValue_grows n _ m

/-- Going back to the top level. -/
theorem grows_resetRunState (m : Machine E) : Grows m m.resetRunState := by
  have mode : Grow m { m with interpreting := true } :=
    .touch (.aside m _ _ _ _ _ _ _)
  exact .tail (.single mode) (.control _ _ _ _ _ _ _ _)

/-- Giving up a failed run. -/
theorem handleError_grows (policy : OnError) (f : Fault) :
    Growing (handleError policy f : Script E Unit) := by
  intro m
  have forgotten : Grows m { m with blame := none } :=
    .single (.control m _ _ _ _ _ _ _)
  have recorded := forgotten.tail (.touch (touch_record _
    (.aborted f.message m.location)))
  have reset : Grows m (m.recover f).2 :=
    recorded.trans (grows_resetRunState _)
  unfold handleError
  cases policy with
  | stop => exact reset
  | resume =>
    have listed : Grow (m.recover f).2
        { (m.recover f).2 with
          reports := (m.recover f).1 :: (m.recover f).2.reports } :=
      .control _ _ _ _ _ _ _ _
    have discarded (m : Machine E) : Grow m m.discardLine :=
      .touch (.aside m _ _ _ _ _ _ _)
    exact (reset.tail listed).tail (discarded _)

/-- **Interpreting only lets the machine grow.** -/
theorem interpret_grows (policy : OnError) (n : Nat) :
    Growing (interpret Primitives.pure policy n) := by
  induction n with
  | zero => exact fun _ => .refl
  | succ n ih =>
    intro m
    have read := (touches_nextToken m).grows
    rw [interpret]
    dsimp only
    split
    · exact .refl
    · split
      · next after hread => rwa [hread] at read
      · next t after hread =>
        rw [hread] at read
        have processed := read.trans (processToken_grows n t after)
        generalize processToken Primitives.pure n t after = r at processed
        cases r with
        | ok a done => exact processed.trans (ih done)
        | error e done =>
          cases e with
          | starved => exact processed
          | failed f =>
            have handled := processed.trans (handleError_grows policy f done)
            dsimp only
            generalize handleError policy f done = r at handled
            cases r with
            | ok a next => exact handled.trans (ih next)
            | error e next => exact handled

/-- So does running a source text, with the input that there was put back. -/
theorem processSource_grows (n : Nat) (path text : String) :
    Growing (processSource Primitives.pure n path text) := by
  intro m
  have given : Grow m { m with input := .ofText path text } :=
    .touch (.aside m _ _ _ _ _ _ _)
  have back (t : Machine .none) : Grow t { t with input := m.input } :=
    .touch (.aside t _ _ _ _ _ _ _)
  have grown := ReflTransGen.head given (interpret_grows .stop n _)
  unfold processSource reading
  generalize interpret Primitives.pure .stop n
    { m with input := .ofText path text } = r at grown
  cases r with
  | ok a after => exact grown.tail (back after)
  | error e after =>
    cases e with
    | starved => exact grown
    | failed report => exact grown.tail (back after)

/-- Executing a word until that ends well only lets the machine grow. -/
theorem bootFrom_grows (policy : OnError) (init : Handle) (n : Nat) :
    Growing (bootFrom Primitives.pure policy init n) := by
  induction n with
  | zero => exact fun _ => .refl
  | succ n ih =>
    intro m
    rw [bootFrom]
    dsimp only
    split
    · exact .refl
    · have executed := execute_grows n init m
      generalize execute Primitives.pure n init m = r at executed
      cases r with
      | ok a done => exact executed
      | error e done =>
        cases e with
        | starved => exact executed
        | failed f =>
          have handled := executed.trans (handleError_grows policy f done)
          dsimp only
          generalize handleError policy f done = r at handled
          cases r with
          | ok a next => exact handled.trans (ih next)
          | error e next => exact handled

/-- **Booting only lets the machine grow.** -/
theorem boot_grows (policy : OnError) (n : Nat) :
    Growing (boot Primitives.pure policy n) := by
  refine Growing.bind (fun m => ?_) fun init => bootFrom_grows policy init n
  unfold mapHalt
  rw [Act.builtin_apply]
  cases m.builtins.find? "init" with
  | some init => exact .refl
  | none => exact .refl

end Machine

end Forth
