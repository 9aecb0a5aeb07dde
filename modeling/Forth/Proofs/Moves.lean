import Forth.Proofs.Growth
import Forth.Proofs.Turns

/-!
# What one turn does to the return stack

A turn of the inner interpreter is one of seven moves.  It stays in the
running thread and leaves the return stack alone; it parks a value or takes
one back; it calls a thread, and then the cell after the call is what goes on
the return stack; it goes back to a caller; it is over, because a thread
exits at the base of the run; or the machine is told to stop.

Main statement: `turn_move`.  Nothing else is needed to follow the return
stack through a run.
-/

namespace Forth.Machine

variable {E : Embedding}

/-- What became of the return stack and the running thread.  `next` is the
cell after the one at hand. -/
inductive Move (next : Cursor) (m t : Machine E) : Prop
  | stay (c : Cursor) (running : t.cursor = some c)
      (frames : t.returns.items = m.returns.items)
  | park (v : Value) (running : t.cursor = some next)
      (frames : t.returns.items = .value v :: m.returns.items)
  | unpark (v : Value) (running : t.cursor = some next)
      (frames : m.returns.items = .value v :: t.returns.items)
  | call (w : Handle) (running : t.cursor = some (.start w))
      (frames : t.returns.items = .call next :: m.returns.items)
  | back (caller : Cursor) (above : m.base < m.returns.items.length)
      (running : t.cursor = some caller)
      (frames : m.returns.items = .call caller :: t.returns.items)
  | halted (atBase : m.returns.items.length ≤ m.base)
      (running : t.cursor = none)
      (frames : t.returns.items = m.returns.items)
  | bye (running : t.cursor = none) (stopped : t.finished = true)

/-- A move within a run: the base stays, and so does whether the machine was
told to stop, unless it is told now and no thread runs on. -/
structure Moved (next : Cursor) (m t : Machine E) : Prop where
  base : t.base = m.base
  told : t.finished = m.finished ∨ t.finished = true ∧ t.cursor = none
  move : Move next m t

/-- A machine that was told to stop stays so. -/
theorem Moved.finished {next : Cursor} {m t : Machine E}
    (h : Moved next m t) (stopped : m.finished = true) :
    t.finished = true := by
  rcases h.told with same | ⟨now, _⟩
  · exact same.trans stopped
  · exact now

/-- Machines with the same return stack in the same run. -/
structure SameFrames (m t : Machine E) : Prop where
  returns : t.returns = m.returns
  base : t.base = m.base
  finished : t.finished = m.finished

/-- Machines with the same return stack and the same running thread. -/
structure SameControl (m t : Machine E) : Prop extends SameFrames m t where
  cursor : t.cursor = m.cursor

/-- Touches leave the control state alone. -/
theorem Touches.sameControl {m t : Machine E} (h : Touches m t) :
    SameControl m t := by
  induction h with
  | refl => exact ⟨⟨rfl, rfl, rfl⟩, rfl⟩
  | tail _ touch ih => cases touch <;> exact ⟨⟨ih.1.1, ih.1.2, ih.1.3⟩, ih.2⟩

/-- Moves only look at the control state. -/
theorem Moved.of_same {next : Cursor} {m m' t t' : Machine E}
    (h : Moved next m t) (before : SameFrames m m')
    (after : SameControl t t') : Moved next m' t' := by
  obtain ⟨returns, base, finished⟩ := before
  obtain ⟨⟨returns', base', finished'⟩, cursor'⟩ := after
  refine ⟨by rw [base', h.base, base], ?_, ?_⟩
  · rw [finished, finished', cursor']
    exact h.told
  · cases h.move with
    | stay c running frames =>
      exact .stay c (cursor' ▸ running) (by rw [returns', frames, returns])
    | park v running frames =>
      exact .park v (cursor' ▸ running) (by rw [returns', frames, returns])
    | unpark v running frames =>
      exact .unpark v (cursor' ▸ running)
        (by rw [returns', ← frames, returns])
    | call w running frames =>
      exact .call w (cursor' ▸ running) (by rw [returns', frames, returns])
    | back caller above running frames =>
      exact .back caller (by rw [base, returns]; exact above)
        (cursor' ▸ running) (by rw [returns', ← frames, returns])
    | halted atBase running frames =>
      exact .halted (by rw [base, returns]; exact atBase)
        (cursor' ▸ running) (by rw [returns', frames, returns])
    | bye running stopped =>
      exact .bye (cursor' ▸ running) (finished' ▸ stopped)

/-- Nothing happens to the return stack. -/
theorem Moved.of_sameFrames {next c : Cursor} {m t : Machine E}
    (h : SameFrames m t) (running : t.cursor = some c) : Moved next m t :=
  ⟨h.base, .inl h.finished,
    .stay c running (by rw [h.returns])⟩

/-- A thread exits to its caller, or out of the run. -/
theorem exitThread_moved {next : Cursor} {m t : Machine E}
    (done : Act.exitThread m = .ok () t) : Moved next m t := by
  rw [Act.exitThread_apply] at done
  split at done
  · cases done
  · split at done
    · next atBase =>
      cases done
      exact ⟨rfl, .inl rfl, .halted (m.returns.depth_eq ▸ atBase) rfl rfl⟩
    · next above =>
      split at done
      · cases done
      · next caller returns hpop =>
        cases done
        have frames := Stack.items_of_pop? hpop
        refine ⟨rfl, .inl rfl, .back caller ?_ rfl frames⟩
        rw [← m.returns.depth_eq]
        omega
      · cases done

/-- What a stack word does to the return stack: nothing, or it parks a value
there, or it takes one back. -/
inductive Parking (m t : Machine E) : Prop
  | none (frames : t.returns.items = m.returns.items)
  | park (v : Value) (frames : t.returns.items = .value v :: m.returns.items)
  | unpark (v : Value)
      (frames : m.returns.items = .value v :: t.returns.items)

/-- Taking back a parked value. -/
theorem takeParked_ok {m t : Machine E} {v : Value}
    (taken : StackWord.takeParked m = .ok v t) :
    m.returns.items = .value v :: t.returns.items ∧
      t = { m with returns := t.returns } := by
  rw [StackWord.takeParked, Act.bind_apply, Act.popFrame_apply] at taken
  cases hpop : m.returns.pop? with
  | none =>
    rw [hpop] at taken
    cases taken
  | some top =>
    obtain ⟨f, returns⟩ := top
    rw [hpop] at taken
    cases f with
    | call c => cases taken
    | value v =>
      cases taken
      exact ⟨Stack.items_of_pop? hpop, rfl⟩

/-- A stack word parks a value, or takes it back, and does nothing else to
the control state. -/
theorem stacking_parks (w : StackWord) {m t : Machine E}
    (done : w.act m = .ok () t) :
    t.cursor = m.cursor ∧ t.base = m.base ∧ t.finished = m.finished ∧
      Parking m t := by
  by_cases quiet : (Builtin.stack w).isQuiet = true
  · have touches := Builtin.touches_act (fun _ => starve) quiet m
    have result : (Builtin.stack w).act (fun _ => starve) m = .ok () t := by
      show w.act.run m = _
      rw [Act.run_apply, done]
    rw [result] at touches
    have same := touches.sameControl
    exact ⟨same.cursor, same.base, same.finished,
      .none (congrArg Stack.items same.returns)⟩
  · cases w with
    | maxDepth =>
      cases done
      exact ⟨rfl, rfl, rfl, .none rfl⟩
    | toReturn =>
      rw [StackWord.act, Act.bind_apply, Act.pop_apply] at done
      split at done
      · next v u hpop =>
        split at hpop
        · cases hpop
        · cases hpop
          cases done
          exact ⟨rfl, rfl, rfl, .park v rfl⟩
      · cases done
    | fromReturn =>
      rw [StackWord.act, Act.bind_apply] at done
      split at done
      · next v u taken =>
        obtain ⟨frames, same⟩ := takeParked_ok taken
        cases done
        rw [same]
        exact ⟨rfl, rfl, rfl, .unpark v frames⟩
      · cases done
    | dropReturn =>
      rw [StackWord.act, Act.bind_apply] at done
      split at done
      · next v u taken =>
        obtain ⟨frames, same⟩ := takeParked_ok taken
        cases done
        rw [same]
        exact ⟨rfl, rfl, rfl, .unpark v frames⟩
      · cases done
    | _ => exact absurd rfl quiet

/-- Within a thread, that is a move. -/
theorem stacking_moved {next : Cursor} (w : StackWord) {m t : Machine E}
    (running : m.cursor = some next) (done : w.act m = .ok () t) :
    Moved next m t := by
  obtain ⟨cursor, base, finished, parking⟩ := stacking_parks w done
  refine ⟨base, .inl finished, ?_⟩
  cases parking with
  | none frames => exact .stay next (cursor.trans running) frames
  | park v frames => exact .park v (cursor.trans running) frames
  | unpark v frames => exact .unpark v (cursor.trans running) frames

/-- An operand is read, and the thread goes on somewhere. -/
theorem fetchOperand_sameFrames {m t : Machine E} {cell : Cell}
    (done : Act.fetchOperand m = .ok cell t) :
    SameFrames m t ∧ ∃ c, t.cursor = some c := by
  rw [Act.fetchOperand_apply] at done
  split at done
  · cases done
  · split at done
    · cases done
    · cases done
      exact ⟨⟨rfl, rfl, rfl⟩, _, rfl⟩

/-- The offset of a branch is read. -/
theorem fetchOffset_sameFrames {m t : Machine E} {offset : Int64}
    (done : ThreadWord.fetchOffset m = .ok offset t) :
    SameFrames m t ∧ ∃ c, t.cursor = some c := by
  rw [ThreadWord.fetchOffset, Act.bind_apply] at done
  split at done
  · next cell u fetched =>
    have same := fetchOperand_sameFrames fetched
    split at done
    · cases done
      exact same
    · cases done
  · cases done

/-- With no thread running there is no offset to read. -/
theorem fetchOffset_idle {m : Machine E} (idle : m.cursor = none) :
    ThreadWord.fetchOffset m = .error .noThread m := by
  rw [ThreadWord.fetchOffset, Act.bind_apply, Act.fetchOperand_apply, idle]

/-- A jump leads to somewhere in the thread. -/
theorem jump_sameFrames {m t : Machine E} {offset : Int64}
    (done : Act.jump offset m = .ok () t) :
    SameFrames m t ∧ ∃ c, t.cursor = some c := by
  rw [Act.jump_apply] at done
  split at done
  · cases done
  · split at done
    · cases done
    · cases done
      exact ⟨⟨rfl, rfl, rfl⟩, _, rfl⟩

theorem SameFrames.trans {m t u : Machine E} (h : SameFrames m t)
    (h' : SameFrames t u) : SameFrames m u :=
  ⟨h'.1.trans h.1, h'.2.trans h.2, h'.3.trans h.3⟩

/-- Words that move through the running thread, `exec` apart. -/
theorem threading_moved {next : Cursor} {call : Handle → Run E Unit}
    (w : ThreadWord) (notExec : w ≠ .exec) {m t : Machine E}
    (done : w.act call m = .ok () t) : Moved next m t := by
  have pushes (h : ThreadWord.pushOperand m = .ok () t) : Moved next m t := by
    rw [ThreadWord.pushOperand, Act.bind_apply] at h
    split at h
    · next cell u fetched =>
      obtain ⟨same, c, running⟩ := fetchOperand_sameFrames fetched
      cases h
      exact .of_sameFrames (same.trans ⟨rfl, rfl, rfl⟩) running
    · cases h
  cases w with
  | lit => exact pushes (Act.eq_ok_of_run done)
  | tick => exact pushes (Act.eq_ok_of_run done)
  | branch =>
    have h := Act.eq_ok_of_run done
    rw [ThreadWord.jumpAlways, Act.bind_apply] at h
    split at h
    · next offset u fetched =>
      obtain ⟨same, _⟩ := fetchOffset_sameFrames fetched
      obtain ⟨same', c, running⟩ := jump_sameFrames h
      exact .of_sameFrames (same.trans same') running
    · cases h
  | zeroBranch =>
    have h := Act.eq_ok_of_run done
    rw [ThreadWord.jumpUnless, Act.bind_apply, Act.popTruth, Act.bind_apply,
      Act.pop_apply] at h
    cases hpop : m.data.pop? with
    | none =>
      rw [hpop] at h
      cases h
    | some top =>
      obtain ⟨v, data⟩ := top
      rw [hpop] at h
      replace h : (ThreadWord.fetchOffset >>= fun offset =>
          if v.isTruthy = true then (return : Act E Unit)
          else Act.jump offset) { m with data := data } = .ok () t := h
      have popped : SameFrames m { m with data := data } := ⟨rfl, rfl, rfl⟩
      rw [Act.bind_apply] at h
      split at h
      · next offset u fetched =>
        obtain ⟨same, c, running⟩ := fetchOffset_sameFrames fetched
        split at h
        · cases h
          exact .of_sameFrames (popped.trans same) running
        · obtain ⟨same', d, running'⟩ := jump_sameFrames h
          exact .of_sameFrames ((popped.trans same).trans same') running'
      · cases h
  | exit => exact exitThread_moved (Act.eq_ok_of_run done)
  | exec => exact absurd rfl notExec
  | bye =>
    cases done
    exact ⟨rfl, .inr ⟨rfl, rfl⟩, .bye rfl rfl⟩

/-- A native word with itself down as the one at work. -/
theorem invoke_ok {w : Handle} {x : Run E Unit} {m t : Machine E}
    (done : invoke w x m = .ok () t) :
    ∃ u, x { m with executing := some w } = .ok () u ∧
      t = { u with executing := m.executing } := by
  unfold invoke at done
  split at done
  · next u h =>
    cases done
    exact ⟨u, h, rfl⟩
  · cases done
  · cases done

theorem invoke_of_ok {w : Handle} {x : Run E Unit} {m u : Machine E}
    (h : x { m with executing := some w } = .ok () u) :
    invoke w x m = .ok () { u with executing := m.executing } := by
  unfold invoke
  rw [h]

theorem invoke_of_failed {w : Handle} {x : Run E Unit} {m u : Machine E}
    {f : Fault} (h : x { m with executing := some w } = .error (.failed f) u) :
    invoke w x m =
      .error (.failed f) { u.captureBlame with executing := m.executing } := by
  unfold invoke
  rw [h]

/-- To execute a native word is to do what it does, as the one at work. -/
theorem execute_builtin (p : Primitives E) (n : Nat) {w : Handle}
    {m : Machine E} {b : Builtin} (body : m.dictionary.body w = .builtin b) :
    execute p (n + 1) w m =
      invoke w (p.builtin (execute p n) b) m.forgetBlame := by
  have forgot : m.forgetBlame.dictionary = m.dictionary := by
    rw [forgetBlame_eq]
  rw [execute]
  dsimp only
  rw [forgot, body]

/-- With no thread running, to execute a thread is to start a run. -/
theorem execute_thread_idle (p : Primitives E) (n : Nat) {w : Handle}
    {m : Machine E} {cells : Array Cell}
    (body : m.dictionary.body w = .thread cells) (idle : m.cursor = none) :
    execute p (n + 1) w m = startRun w (loop p n) m.forgetBlame := by
  have forgot : m.forgetBlame.dictionary = m.dictionary ∧
      m.forgetBlame.cursor = m.cursor := by
    rw [forgetBlame_eq]
    exact ⟨rfl, rfl⟩
  rw [execute]
  dsimp only
  rw [forgot.1, body, forgot.2, idle]

/-- A run that ends well leaves no thread running. -/
theorem startRun_of_ok {w : Handle} {x : Run E Unit} {m t : Machine E}
    (h : x { m with base := m.returns.depth, cursor := some (.start w) } =
      .ok () t) :
    startRun w x m = .ok () { t with cursor := none, base := m.base } := by
  unfold startRun
  dsimp only
  rw [h]

/-- So does one that fails. -/
theorem startRun_of_failed {w : Handle} {x : Run E Unit} {m t : Machine E}
    {f : Fault}
    (h : x { m with base := m.returns.depth, cursor := some (.start w) } =
      .error (.failed f) t) :
    startRun w x m = .error (.failed f)
      { t.captureBlame with cursor := none, base := m.base } := by
  unfold startRun
  dsimp only
  rw [h]

/-- A built-in word moves, if executing words within a thread does. -/
theorem act_moved {next : Cursor} {call : Handle → Run E Unit}
    (calls : ∀ {w m t}, m.cursor = some next → call w m = .ok () t →
      Moved next m t)
    (b : Builtin) {m t : Machine E} (running : m.cursor = some next)
    (done : b.act call m = .ok () t) : Moved next m t := by
  by_cases quiet : b.isQuiet = true
  · have touches := b.touches_act call quiet m
    rw [done] at touches
    have same := touches.sameControl
    exact .of_sameFrames same.1 (same.2.trans running)
  · cases b with
    | stack w => exact stacking_moved w running (Act.eq_ok_of_run done)
    | thread w =>
      by_cases isExec : w = .exec
      · subst isExec
        have executed : ThreadWord.act call .exec m = .ok () t := done
        rw [ThreadWord.exec_apply] at executed
        split at executed
        · cases executed
        · next w data _ =>
          have moved := calls (m := { m with data := data }) running executed
          exact moved.of_same ⟨rfl, rfl, rfl⟩ ⟨⟨rfl, rfl, rfl⟩, rfl⟩
        · cases executed
      · exact threading_moved w isExec done
    | _ => exact absurd rfl quiet

/-- While a thread is running, an earlier failure is not forgotten. -/
theorem forgetBlame_of_running {m : Machine E} (running : m.cursor ≠ none) :
    m.forgetBlame = m := by
  unfold forgetBlame
  rw [if_neg]
  rintro ⟨none, _⟩
  exact running (Option.isNone_iff_eq_none.1 none)

/-- A native word is executed within a thread. -/
theorem execute_native {w : Handle} {b : Builtin} {t : Machine .none} (n : Nat)
    (running : t.cursor ≠ none) (body : t.dictionary.body w = .builtin b) :
    execute Primitives.pure (n + 1) w t =
      invoke w (b.act (execute Primitives.pure n)) t := by
  rw [execute_builtin _ n body, forgetBlame_of_running running]
  rfl

/-- A thread is executed within a thread. -/
theorem execute_thread {w : Handle} {c : Cursor} {cells : Array Cell}
    {t : Machine .none} (n : Nat) (running : t.cursor = some c)
    (body : t.dictionary.body w = .thread cells) :
    execute Primitives.pure (n + 1) w t = .ok () (t.descend c w) := by
  rw [execute]
  dsimp only
  rw [forgetBlame_of_running (by simp [running]), body, running]

/-- **Executing a word within a running thread is a move.**  A thread is
called, and the cell after the call is what goes on the return stack. -/
theorem execute_moved (n : Nat) {next : Cursor} {w : Handle}
    {m t : Machine .none} (running : m.cursor = some next)
    (done : execute Primitives.pure n w m = .ok () t) : Moved next m t := by
  induction n generalizing w m t with
  | zero => cases done
  | succ n ih =>
    have forgot : SameControl m.forgetBlame m := by
      rw [forgetBlame_eq]
      exact ⟨⟨rfl, rfl, rfl⟩, rfl⟩
    have running' := forgot.cursor.symm.trans running
    rw [execute] at done
    dsimp only at done
    split at done
    · next b _ =>
      obtain ⟨u, acted, rfl⟩ := invoke_ok done
      have moved := act_moved ih b (m := { m.forgetBlame with
        executing := some w }) running' acted
      exact moved.of_same
        ⟨forgot.returns, forgot.base, forgot.finished⟩
        ⟨⟨rfl, rfl, rfl⟩, rfl⟩
    · next code _ => exact code.elim
    · rw [running'] at done
      cases done
      have moved : Moved next m.forgetBlame (m.forgetBlame.descend next w) :=
        ⟨rfl, .inl rfl, .call w rfl rfl⟩
      exact moved.of_same forgot.toSameFrames ⟨⟨rfl, rfl, rfl⟩, rfl⟩

/-- The machine that has fetched a cell and is about to do what it says. -/
def fetched (m : Machine E) (c : Cursor) (cell : Cell) : Machine E :=
  { m with cursor := some ⟨c.word, c.index + 1⟩ }.traceStep c cell

theorem fetched_eq (m : Machine E) (c : Cursor) (cell : Cell) :
    m.fetched c cell =
      { m with
        cursor := some ⟨c.word, c.index + 1⟩
        events := (m.fetched c cell).events } :=
  traceStep_eq _ c cell

/-- At the end of its thread a turn exits. -/
theorem step_of_end (call : Handle → Run E Unit) {c : Cursor}
    {m : Machine E} (atEnd : (m.dictionary.cells c.word).size ≤ c.index) :
    step call c m = Act.exitThread.run m := by
  unfold step
  have look (f : Machine E → Run E Unit) : (get >>= f) m = f m m := rfl
  rw [look, if_pos (by simpa [Cursor.isExhausted] using atEnd)]

/-- Before that it does what the cell says. -/
theorem step_of_cell (call : Handle → Run E Unit) {c : Cursor}
    {m : Machine E} {cell : Cell} (running : m.cursor = some c)
    (present : (m.dictionary.cells c.word)[c.index]? = some cell) :
    step call c m =
      match cell with
      | .word w => call w (m.fetched c cell)
      | .literal v =>
        .ok () { m.fetched c cell with
          data := (m.fetched c cell).data.push v } := by
  obtain ⟨within, _⟩ := Array.getElem?_eq_some_iff.1 present
  have inside : ¬ (c.isExhausted (m.dictionary.cells c.word).size = true) := by
    simpa [Cursor.isExhausted] using within
  unfold step
  have look (f : Machine E → Run E Unit) : (get >>= f) m = f m m := rfl
  rw [look, if_neg inside, Act.bind_apply, Act.run_apply,
    Act.fetchOperand_apply, running]
  unfold Cursor.fetch
  simp only [present]
  cases cell with
  | word w => rfl
  | literal v => rfl

/-- Not at the end there is a cell. -/
theorem exists_cell {cells : Array Cell} {index : Nat}
    (inside : ¬ cells.size ≤ index) : ∃ cell, cells[index]? = some cell :=
  ⟨_, Array.getElem?_eq_getElem (Nat.lt_of_not_le inside)⟩

/-- A turn that ends well either exits, or fetches a cell and does what it
says. -/
theorem step_ok {call : Handle → Run E Unit} {c : Cursor} {m t : Machine E}
    (running : m.cursor = some c) (done : step call c m = .ok () t) :
    ((m.dictionary.cells c.word).size ≤ c.index ∧
      Act.exitThread m = .ok () t) ∨
    ∃ cell, (m.dictionary.cells c.word)[c.index]? = some cell ∧
      match cell with
      | .word w => call w (m.fetched c cell) = .ok () t
      | .literal v =>
        t = { m.fetched c cell with
          data := (m.fetched c cell).data.push v } := by
  by_cases atEnd : (m.dictionary.cells c.word).size ≤ c.index
  · rw [step_of_end call atEnd] at done
    exact .inl ⟨atEnd, Act.eq_ok_of_run done⟩
  · obtain ⟨cell, present⟩ := exists_cell atEnd
    rw [step_of_cell call running present] at done
    refine .inr ⟨cell, present, ?_⟩
    cases cell with
    | word w => exact done
    | literal v =>
      cases done
      rfl

/-- **Every turn is a move.** -/
theorem turn_move {m t : Machine .none} {c : Cursor}
    (running : m.cursor = some c) (turn : Turn Primitives.pure m t) :
    Moved ⟨c.word, c.index + 1⟩ m t := by
  obtain ⟨n, d, hd, done⟩ := turn
  have same : c = d := Option.some.inj (running.symm.trans hd)
  subst same
  rcases step_ok running done with ⟨_, exited⟩ | ⟨cell, _, rest⟩
  · exact exitThread_moved exited
  · have framed : SameFrames (m.fetched c cell) m := by
      rw [fetched_eq]
      exact ⟨rfl, rfl, rfl⟩
    have running' : (m.fetched c cell).cursor =
        some ⟨c.word, c.index + 1⟩ := by
      rw [fetched_eq]
    cases cell with
    | word w =>
      have moved := execute_moved n running' rest
      exact moved.of_same framed ⟨⟨rfl, rfl, rfl⟩, rfl⟩
    | literal v =>
      have stays : Moved ⟨c.word, c.index + 1⟩ (m.fetched c (.literal v))
          t := by
        rw [rest]
        exact .of_sameFrames ⟨rfl, rfl, rfl⟩ running'
      exact stays.of_same framed ⟨⟨rfl, rfl, rfl⟩, rfl⟩

/-! ## Rows of turns -/

/-- The base of a run stays. -/
theorem Reaches.base_eq {m t : Machine .none}
    (reach : Reaches Primitives.pure m t) : t.base = m.base := by
  induction reach with
  | refl => rfl
  | tail _ turn ih =>
    obtain ⟨n, c, running, _⟩ := id turn
    exact (turn_move running turn).base.trans ih

/-- As long as a thread is running, the machine has not been told to stop. -/
theorem Reaches.going {m t : Machine .none}
    (reach : Reaches Primitives.pure m t) (going : m.finished = false)
    (running : t.cursor ≠ none) : t.finished = false := by
  induction reach with
  | refl => exact going
  | tail _ turn ih =>
    obtain ⟨n, c, before, _⟩ := id turn
    rcases (turn_move before turn).told with same | ⟨_, halted⟩
    · exact same.trans (ih (by simp [before]))
    · exact absurd halted running

end Forth.Machine
