import Forth.Proofs.Moves

/-!
# Machines that run in lockstep

Two machines that agree on control, and differ otherwise only in what the
words within reach can not see, take every step together: the same cell is
fetched, the same word executed, the same token processed.  A relation of that
kind is a **lockstep**.  It is a congruence of words, so the words that leave
control alone follow themselves; it fixes return stack, running thread and
threads, so the words that move control do as well.

From that the two machines are followed upwards, each level with the same
allowance on both sides:

* `Lockstep.act` — one native word, if it is within reach;
* `Lockstep.step` — one turn of the inner interpreter;
* `Lockstep.execute_loop` — a word, and the run of a thread, by induction on
  the allowance;
* `Lockstep.interpret` — a text that is interpreted up to its end or to the
  first failure, by induction again.

Main statements: `Lockstep.processSource_ok` and
`Lockstep.processSource_failed`, about a text that is run.  They say nothing
of what the relation is, so whatever machines may differ in without a word
noticing is put in there.
-/

namespace Forth

/-- The cells of a word are known from what it does. -/
theorem Dictionary.cells_eq {E : Embedding} (d : Dictionary E) (h : Handle) :
    d.cells h = match d.body h with
      | .thread cells => cells
      | _ => #[] := by
  unfold Dictionary.cells Dictionary.body
  cases d.word? h with
  | none => rfl
  | some w =>
    show (w.cells?).getD #[] = match w.body with
      | .thread cells => cells
      | _ => #[]
    unfold Word.cells?
    cases w.body <;> rfl

/-- An action among computations that are excused when they starve. -/
theorem Follows.runs {E : Embedding} {α : Type}
    {S : Machine E → Machine E → Prop} {excused : Fault → Prop}
    {x y : Act E α} (h : Follows S excused x y) :
    Follows S (Halt.Excused excused) x.run y.run :=
  h.run fun _ fine => fine

namespace Machine

/-- Machines with the same control state, in the same mode, with the same
variables and the same output. -/
structure InStep {E : Embedding} (m t : Machine E) : Prop where
  builtins : t.builtins = m.builtins
  returns : t.returns = m.returns
  cursor : t.cursor = m.cursor
  base : t.base = m.base
  interpreting : t.interpreting = m.interpreting
  underConstruction : t.underConstruction = m.underConstruction
  memory : t.memory = m.memory
  executing : t.executing = m.executing
  finished : t.finished = m.finished
  output : t.output = m.output
  watcher : t.watcher = m.watcher
  reports : t.reports = m.reports
  host : t.host = m.host

namespace InStep

variable {E : Embedding} {m t : Machine E}

/-- Failures are blamed on the same word. -/
theorem executingName (h : InStep m t) :
    t.executingName = m.executingName := by
  unfold Machine.executingName
  rw [h.executing, h.cursor]

end InStep

/-- A relation between machines in step that have the same threads, through
which the words outside `barred` do not see. -/
structure Lockstep (S : Machine .none → Machine .none → Prop)
    (excused : Fault → Prop) (barred : Builtin → Bool) : Prop
    extends WordCongruence S excused where
  share : ∀ {m t}, S m t → InStep m t
  body : ∀ {m t}, S m t → t.dictionary.body = m.dictionary.body
  /-- Control moves on both sides alike. -/
  moves : ∀ {m t}, S m t → ∀ {returns returns' cursor cursor' base base'
      executing executing' finished finished'},
    returns' = returns → cursor' = cursor → base' = base →
    executing' = executing → finished' = finished →
    S { m with
        returns := returns
        cursor := cursor
        base := base
        executing := executing
        finished := finished }
      { t with
        returns := returns'
        cursor := cursor'
        base := base'
        executing := executing'
        finished := finished' }
  forgets : ∀ {m t}, S m t → S m.forgetBlame t.forgetBlame
  blames : ∀ {m t}, S m t → S m.captureBlame t.captureBlame
  traces : ∀ {m t}, S m t → ∀ c cell,
    S (m.traceStep c cell) (t.traceStep c cell)
  /-- The words that pry are out of reach, or find nothing. -/
  prying : ∀ {b}, b.pries = true → barred b = false → ∀ f g,
    Follows S (Halt.Excused excused) (b.act f) (b.act g)
  maxDepth : barred (.stack .maxDepth) = false →
    Follows S excused (StackWord.act .maxDepth) (StackWord.act .maxDepth)

namespace Lockstep

variable {S : Machine .none → Machine .none → Prop} {excused : Fault → Prop}
  {barred : Builtin → Bool} {m t : Machine .none}

/-- The same threads have the same cells. -/
theorem cells (k : Lockstep S excused barred) (h : S m t) :
    t.dictionary.cells = m.dictionary.cells := by
  funext w
  rw [Dictionary.cells_eq, Dictionary.cells_eq, k.body h]

/-! ## Words that use the return stack or the running thread -/

theorem withReturns (k : Lockstep S excused barred) (h : S m t)
    (returns : Stack Frame) :
    S { m with returns := returns } { t with returns := returns } := by
  have same := k.share h
  exact k.moves h rfl same.cursor same.base same.executing same.finished

theorem withCursor (k : Lockstep S excused barred) (h : S m t)
    (cursor : Option Cursor) :
    S { m with cursor := cursor } { t with cursor := cursor } := by
  have same := k.share h
  exact k.moves h same.returns rfl same.base same.executing same.finished

theorem withExecuting (k : Lockstep S excused barred) (h : S m t)
    (executing : Option Handle) :
    S { m with executing := executing } { t with executing := executing } := by
  have same := k.share h
  exact k.moves h same.returns same.cursor same.base rfl same.finished

theorem pushFrame (k : Lockstep S excused barred) (f : Frame) :
    Follows S excused (Act.pushFrame f) (Act.pushFrame f) := by
  intro m t h
  have pushed := k.withReturns h (m.returns.push f)
  show Matches S excused (.ok () { m with returns := m.returns.push f })
    (.ok () { t with returns := t.returns.push f })
  rw [(k.share h).returns]
  exact .ok pushed

theorem popFrame (k : Lockstep S excused barred) :
    Follows S excused Act.popFrame Act.popFrame := by
  intro m t h
  rw [Act.popFrame_apply, Act.popFrame_apply, (k.share h).returns]
  split
  · exact .error h
  · exact .ok (k.withReturns h _)

/-- The same value is taken back, or the same return address is found. -/
theorem takeParked (k : Lockstep S excused barred) :
    Follows S excused StackWord.takeParked StackWord.takeParked := by
  refine k.popFrame.bind fun f => ?_
  cases f with
  | value v => exact Follows.pure _
  | call c => exact (k.pushFrame _).bind fun _ => Follows.throw _

/-- The same cell is read. -/
theorem fetchOperand (k : Lockstep S excused barred) :
    Follows S excused Act.fetchOperand Act.fetchOperand := by
  intro m t h
  rw [Act.fetchOperand_apply, Act.fetchOperand_apply, (k.share h).cursor,
    k.cells h]
  split
  · exact .error h
  · split
    · exact .error h
    · exact .ok (k.withCursor h _)

theorem fetchOffset (k : Lockstep S excused barred) :
    Follows S excused ThreadWord.fetchOffset ThreadWord.fetchOffset := by
  refine k.fetchOperand.bind fun c => ?_
  split
  · exact Follows.pure _
  · exact k.fail _

/-- The same jump is made. -/
theorem jump (k : Lockstep S excused barred) (offset : Int64) :
    Follows S excused (Act.jump offset) (Act.jump offset) := by
  intro m t h
  rw [Act.jump_apply, Act.jump_apply, (k.share h).cursor, k.cells h]
  split
  · exact .error h
  · split
    · exact .error h
    · exact .ok (k.withCursor h _)

/-- A thread exits to the same caller, or out of the run on both sides. -/
theorem exitThread (k : Lockstep S excused barred) :
    Follows S excused Act.exitThread Act.exitThread := by
  intro m t h
  have same := k.share h
  rw [Act.exitThread_apply, Act.exitThread_apply, same.cursor, same.returns,
    same.base]
  split
  · exact .error h
  · split
    · exact .ok (k.moves h rfl rfl rfl same.executing same.finished)
    · split
      · exact .error h
      · exact .ok (k.moves h rfl rfl rfl same.executing same.finished)
      · exact .error (k.moves h rfl rfl rfl same.executing same.finished)

/-- Both machines are told to stop. -/
theorem finish (k : Lockstep S excused barred) (h : S m t) :
    S m.finish t.finish := by
  have same := k.share h
  have returns : t.returns.truncate t.base = m.returns.truncate m.base := by
    rw [same.returns, same.base]
  exact k.moves h returns rfl same.base same.executing rfl

/-- The words of a thread. -/
theorem threading (k : Lockstep S excused barred)
    {f g : Handle → Run .none Unit}
    (calls : ∀ w, Follows S (Halt.Excused excused) (f w) (g w))
    (s : ThreadWord) :
    Follows S (Halt.Excused excused) (s.act f) (s.act g) := by
  have operand := k.fetchOperand.bind fun c => k.push c.toValue
  cases s with
  | lit | tick => exact operand.runs
  | branch => exact (k.fetchOffset.bind fun n => k.jump n).runs
  | zeroBranch =>
    refine (k.popTruth.bind fun condition =>
      k.fetchOffset.bind fun offset => ?_).runs
    cases condition with
    | true => exact Follows.pure _
    | false => exact k.jump offset
  | exit => exact k.exitThread.runs
  | exec => exact (k.popWord.runs).bind calls
  | bye => exact fun m t h => .ok (k.finish h)

/-- **One native word.**  If it is out of reach, the leading machine
starves. -/
theorem act (k : Lockstep S excused barred) {f g : Handle → Run .none Unit}
    (calls : ∀ w, Follows S (Halt.Excused excused) (f w) (g w))
    (b : Builtin) :
    Follows S (Halt.Excused excused)
      ((Primitives.pure.without barred).builtin f b)
      (Primitives.pure.builtin g b) := by
  show Follows S _ (if barred b = true then starve else b.act f) (b.act g)
  cases reach : barred b with
  | true => exact fun m t h => .excused trivial
  | false =>
    rw [if_neg Bool.false_ne_true]
    by_cases pries : b.pries = true
    · exact k.prying pries reach f g
    · by_cases quiet : b.isQuiet = true
      · exact k.toWordCongruence.act (fun _ fine => fine) f g quiet
          (Bool.eq_false_iff.2 pries)
      · cases b with
        | stack w =>
          cases w with
          | maxDepth => exact (k.maxDepth reach).runs
          | toReturn =>
            exact (k.pop.bind fun v => k.pushFrame _).runs
          | fromReturn =>
            exact (k.takeParked.bind fun v => k.push v).runs
          | dropReturn =>
            exact (k.takeParked.bind fun v => (k.push v).bind fun _ =>
              k.pop.bind fun _ => Follows.pure _).runs
          | _ => exact absurd rfl quiet
        | thread s => exact k.threading calls s
        | _ => exact absurd rfl quiet

/-! ## The inner interpreter -/

/-- A native word with itself down as the one at work. -/
theorem invoke (k : Lockstep S excused barred) (w : Handle)
    {x y : Run .none Unit} (does : Follows S (Halt.Excused excused) x y) :
    Follows S (Halt.Excused excused) (invoke w x) (invoke w y) := by
  intro m t h
  have done := does _ _ (k.withExecuting h (some w))
  unfold Machine.invoke
  rw [(k.share h).executing]
  generalize x { m with executing := some w } = r at done
  generalize y { t with executing := some w } = s at done
  cases done with
  | ok related => exact .ok (k.withExecuting related _)
  | @error e m' t' related =>
    cases e with
    | failed f => exact .error (k.withExecuting (k.blames related) _)
    | starved => exact .excused trivial
  | @excused e m' s fine =>
    cases e with
    | failed f => exact .excused fine
    | starved => exact .excused trivial

/-- A run of a thread. -/
theorem startRun (k : Lockstep S excused barred) (w : Handle)
    {x y : Run .none Unit} (does : Follows S (Halt.Excused excused) x y) :
    Follows S (Halt.Excused excused) (startRun w x) (startRun w y) := by
  intro m t h
  have same := k.share h
  have entered : S
      { m with base := m.returns.depth, cursor := some (.start w) }
      { t with base := t.returns.depth, cursor := some (.start w) } :=
    k.moves h same.returns rfl (congrArg Stack.depth same.returns)
      same.executing same.finished
  have left {m' t' : Machine .none} (related : S m' t') :
      S { m' with cursor := none, base := m.base }
        { t' with cursor := none, base := t.base } := by
    have same' := k.share related
    exact k.moves related same'.returns rfl same.base same'.executing
      same'.finished
  have done := does _ _ entered
  unfold Machine.startRun
  dsimp only
  generalize x { m with base := m.returns.depth, cursor := some (.start w) }
    = r at done
  generalize y { t with base := t.returns.depth, cursor := some (.start w) }
    = s at done
  cases done with
  | ok related => exact .ok (left related)
  | @error e m' t' related =>
    cases e with
    | failed f => exact .error (left (k.blames related))
    | starved => exact .excused trivial
  | @excused e m' s fine =>
    cases e with
    | failed f => exact .excused fine
    | starved => exact .excused trivial

/-- **One turn.**  Both machines exit, or fetch the same cell. -/
theorem step (k : Lockstep S excused barred) {f g : Handle → Run .none Unit}
    (calls : ∀ w, Follows S (Halt.Excused excused) (f w) (g w))
    (c : Cursor) :
    Follows S (Halt.Excused excused) (step f c) (step g c) := by
  have traced (cell : Cell) : Follows S (Halt.Excused excused)
      (modify fun m => m.traceStep c cell : Run .none Unit)
      (modify fun m => m.traceStep c cell) :=
    fun m t h => .ok (k.traces h c cell)
  intro m t h
  unfold Machine.step
  have look (x : Machine .none → Run .none Unit) (m : Machine .none) :
      (get >>= x) m = x m m := rfl
  rw [look, look, k.cells h]
  split
  · exact k.exitThread.runs m t h
  · refine ((k.fetchOperand.runs).bind fun cell =>
      (traced cell).bind fun _ => ?_) m t h
    cases cell with
    | word w => exact calls w
    | literal v => exact (k.push v).runs

/-- **Executing a word, and carrying on a thread**, both at once since they
call each other. -/
theorem execute_loop (k : Lockstep S excused barred) (n : Nat) :
    (∀ w, Follows S (Halt.Excused excused)
      (execute (Primitives.pure.without barred) n w)
      (execute Primitives.pure n w)) ∧
    Follows S (Halt.Excused excused)
      (loop (Primitives.pure.without barred) n)
      (loop Primitives.pure n) := by
  induction n with
  | zero =>
    exact ⟨fun w m t h => .excused trivial, fun m t h => .excused trivial⟩
  | succ n ih =>
    obtain ⟨executes, loops⟩ := ih
    constructor
    · intro w m t h
      -- Both sides look the word up in the same threads, so they take the
      -- same branch.
      have forgot := k.forgets h
      rw [execute, execute]
      dsimp only
      rw [k.body forgot, (k.share forgot).cursor]
      split
      · next b _ => exact k.invoke w (k.act executes b) _ _ forgot
      · next code _ => exact code.elim
      · split
        · next caller _ =>
          have descended := k.withCursor
            (k.withReturns forgot (m.forgetBlame.returns.push (.call caller)))
            (some (.start w))
          unfold descend
          rw [(k.share forgot).returns]
          exact .ok descended
        · exact k.startRun w loops _ _ forgot
    · intro m t h
      cases running : m.cursor with
      | none =>
        rw [loop_of_none _ _ running,
          loop_of_none _ _ ((k.share h).cursor.trans running)]
        exact .ok h
      | some c =>
        rw [loop_of_some _ _ running,
          loop_of_some _ _ ((k.share h).cursor.trans running)]
        have turned := k.step executes c m t h
        generalize Machine.step
          (execute (Primitives.pure.without barred) n) c m = r at turned
        generalize Machine.step (execute Primitives.pure n) c t = s at turned
        cases turned with
        | ok related => exact loops _ _ related
        | error related => exact .error related
        | excused fine => exact .excused fine

/-! ## The outer interpreter -/

/-- Interpreting or compiling a value. -/
theorem processValue (k : Lockstep S excused barred) (n : Nat) (v : Value) :
    Follows S (Halt.Excused excused)
      (processValue (Primitives.pure.without barred) n v)
      (processValue Primitives.pure n v) := by
  intro m t h
  unfold Machine.processValue
  rw [k.interpreting h, k.isImmediate h]
  split
  · split
    · exact (k.execute_loop n).1 _ m t h
    · exact (k.compile _).runs m t h
  · split
    · exact (k.push _).runs m t h
    · exact ((k.builtin "lit").bind fun _ => (k.compile _).bind fun _ =>
        k.compile _).runs m t h

/-- The same token is read, wherever it stands. -/
theorem nextToken (k : Lockstep S excused barred) (h : S m t) :
    t.nextToken.1.map Token.text = m.nextToken.1.map Token.text ∧
      S m.nextToken.2 t.nextToken.2 := by
  have read := k.tokenText m t h
  have result (m : Machine .none) :
      (Option.map Token.text <$> Act.nextToken?) m =
        .ok (m.nextToken.1.map Token.text) m.nextToken.2 := rfl
  rw [result, result] at read
  generalize m.nextToken.1.map Token.text = text at read
  generalize t.nextToken.1.map Token.text = text' at read
  cases read with
  | ok related => exact ⟨rfl, related⟩

/-- How interpreting ends on both sides: well, or with the failure of machines
that were related then. -/
inductive Concludes (S : Machine .none → Machine .none → Prop)
    (excused : Fault → Prop) :
    EStateM.Result (Halt Report) (Machine .none) Unit →
    EStateM.Result (Halt Report) (Machine .none) Unit → Prop
  | ok {m t : Machine .none} (related : S m t) :
      Concludes S excused (.ok () m) (.ok () t)
  | failed {m t : Machine .none} (f : Fault) (related : S m t) :
      Concludes S excused
        (.error (.failed (m.recover f).1) (m.recover f).2)
        (.error (.failed (t.recover f).1) (t.recover f).2)
  | excused {report : Report} {m : Machine .none}
      {s : EStateM.Result (Halt Report) (Machine .none) Unit}
      (fine : excused report.fault) :
      Concludes S excused (.error (.failed report) m) s
  | starved {m : Machine .none}
      {s : EStateM.Result (Halt Report) (Machine .none) Unit} :
      Concludes S excused (.error .starved m) s

/-- **Interpreting a text.**  Token by token both machines do the same. -/
theorem interpret (k : Lockstep S excused barred) (n : Nat) (h : S m t) :
    Concludes S excused
      (interpret (Primitives.pure.without barred) .stop n m)
      (interpret Primitives.pure .stop n t) := by
  induction n generalizing m t with
  | zero => exact .starved
  | succ n ih =>
    rw [Machine.interpret, Machine.interpret]
    dsimp only
    rw [(k.share h).finished]
    split
    · exact .ok h
    · obtain ⟨texts, read⟩ := k.nextToken h
      generalize m.nextToken = r at texts read
      generalize t.nextToken = s at texts read
      obtain ⟨token, m'⟩ := r
      obtain ⟨token', t'⟩ := s
      -- The tokens may differ in their places, not in whether there is one.
      cases token with
      | none =>
        cases token' with
        | none => exact .ok read
        | some token' => cases texts
      | some token =>
        cases token' with
        | none => cases texts
        | some token' =>
          have text : token'.text = token.text := Option.some.inj texts
          have processed := k.processValue n
            (m'.dictionary.translate token.text) m' t' read
          dsimp only
          unfold processToken
          rw [text, k.translate read]
          generalize Machine.processValue (Primitives.pure.without barred) n
            (m'.dictionary.translate token.text) m' = r at processed
          generalize Machine.processValue Primitives.pure n
            (m'.dictionary.translate token.text) t' = s at processed
          cases processed with
          | ok related => exact ih related
          | @error e _ _ related =>
            cases e with
            | failed f => exact .failed f related
            | starved => exact .starved
          | @excused e _ _ fine =>
            cases e with
            | failed f => exact .excused fine
            | starved => exact .starved

/-- **A text that is run to its end** is run to its end on the other side. -/
theorem processSource_ok (k : Lockstep S excused barred) {n : Nat}
    {path path' text text' : String} {a : Machine .none}
    (h : S { m with input := .ofText path text }
      { t with input := .ofText path' text' })
    (done : processSource (Primitives.pure.without barred) n path text m =
      .ok () a) :
    ∃ a' b', S a' b' ∧ a = { a' with input := m.input } ∧
      processSource Primitives.pure n path' text' t =
        .ok () { b' with input := t.input } := by
  have concludes := k.interpret n h
  unfold processSource reading at done ⊢
  generalize Machine.interpret (Primitives.pure.without barred) .stop n
    { m with input := .ofText path text } = r at concludes done
  generalize Machine.interpret Primitives.pure .stop n
    { t with input := .ofText path' text' } = s at concludes
  cases concludes with
  | ok related =>
    cases done
    exact ⟨_, _, related, rfl, rfl⟩
  | failed | excused | starved => cases done

/-- **A text whose run fails** fails at the same point on the other side,
unless the fault is excused. -/
theorem processSource_failed (k : Lockstep S excused barred) {n : Nat}
    {path path' text text' : String} {report : Report} {a : Machine .none}
    (h : S { m with input := .ofText path text }
      { t with input := .ofText path' text' })
    (failed : processSource (Primitives.pure.without barred) n path text m =
      .error (.failed report) a) :
    excused report.fault ∨
    ∃ f a' b', S a' b' ∧ report = (a'.recover f).1 ∧
      a = { (a'.recover f).2 with input := m.input } ∧
      processSource Primitives.pure n path' text' t =
        .error (.failed (b'.recover f).1)
          { (b'.recover f).2 with input := t.input } := by
  have concludes := k.interpret n h
  unfold processSource reading at failed ⊢
  generalize Machine.interpret (Primitives.pure.without barred) .stop n
    { m with input := .ofText path text } = r at concludes failed
  generalize Machine.interpret Primitives.pure .stop n
    { t with input := .ofText path' text' } = s at concludes
  cases concludes with
  | failed f related =>
    cases failed
    exact .inr ⟨f, _, _, related, rfl, rfl, rfl⟩
  | excused fine =>
    cases failed
    exact .inl fine
  | ok | starved => cases failed

end Lockstep

end Machine

end Forth
