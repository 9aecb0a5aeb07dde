import Forth.Proofs.Nested

/-!
# Turns of a thread that is known, and calls

Where it is known what stands in a cell, it is known what the turn does.  The
turns are described against a machine whose control state is of no concern
(`Standing`), by what the word in the cell makes of that machine: this is how
one reads a thread cell by cell.

A thread is called from a cell that holds it, or through the built-in words
`lit` and `exec` (`CallSite`).  Main statement, `call_eq_run`: calling a
thread in either way leads to the cell after the call, with the return stack
as it was and otherwise with the machine that running the thread at top level
leaves behind.
-/

namespace Forth.Machine

open Relation

variable {c : Cursor} {frames : List Frame} {m t : Machine .none}

/-! ## Fetching -/

/-- A fetched cell moves the cursor and nothing else that matters. -/
theorem Standing.fetched (h : Standing c frames m t) (cell : Cell) :
    Standing ⟨c.word, c.index + 1⟩ frames m (t.fetched c cell) := by
  rw [fetched_eq]
  exact { h with inThread := rfl }

/-- Who is at work does not matter. -/
theorem Standing.blind (h : Standing c frames m t) (e e' : Option Handle)
    (b b' : Option CallTrace) :
    Standing c frames { m with executing := e, blame := b }
      { t with executing := e', blame := b' } :=
  { h with }

/-- The cell at the cursor, as both machines have it. -/
theorem Standing.present (h : Standing c frames m t) {cell : Cell}
    (present : (m.dictionary.cells c.word)[c.index]? = some cell) :
    (t.dictionary.cells c.word)[c.index]? = some cell := by
  rw [h.dictionary]
  exact present

/-- A word in a cell takes a turn. -/
theorem Standing.turn {w : Handle} (h : Standing c frames m t)
    (present : (m.dictionary.cells c.word)[c.index]? = some (.word w))
    {n : Nat} {u : Machine .none}
    (done : execute Primitives.pure n w (t.fetched c (.word w)) = .ok () u) :
    Turn Primitives.pure t u :=
  ⟨n, c, h.inThread,
    (step_of_cell _ h.inThread (h.present present)).trans done⟩

/-- A word in a cell fails. -/
theorem Standing.fails {w : Handle} (h : Standing c frames m t)
    (present : (m.dictionary.cells c.word)[c.index]? = some (.word w))
    {n : Nat} {f : Fault} {u : Machine .none}
    (done : execute Primitives.pure n w (t.fetched c (.word w)) =
      .error (.failed f) u) : Fails Primitives.pure t f u :=
  ⟨n, c, h.inThread,
    (step_of_cell _ h.inThread (h.present present)).trans done⟩

/-- The machine in which a native word from a cell is at work. -/
def atWorkFrom (t : Machine .none) (c : Cursor) (w : Handle) :
    Machine .none :=
  { t.fetched c (.word w) with executing := some w }

theorem Standing.atWorkFrom (h : Standing c frames m t) (w : Handle) :
    Standing ⟨c.word, c.index + 1⟩ frames m (t.atWorkFrom c w) :=
  (h.fetched (.word w)).blind m.executing (some w) m.blame _

section Native

variable {w : Handle} {b : Builtin}

/-- A native word in a cell is invoked. -/
theorem Standing.execute_fetched (h : Standing c frames m t)
    (body : m.dictionary.body w = .builtin b) (n : Nat) :
    execute Primitives.pure (n + 1) w (t.fetched c (.word w)) =
      invoke w (b.act (execute Primitives.pure n))
        (t.fetched c (.word w)) := by
  have after := h.fetched (.word w)
  exact execute_native n (by simp [after.inThread])
    (after.dictionary ▸ body)

/-- A native word in a cell takes a turn if it ends well. -/
theorem Standing.turn_native (h : Standing c frames m t)
    (present : (m.dictionary.cells c.word)[c.index]? = some (.word w))
    (body : m.dictionary.body w = .builtin b) {n : Nat} {u : Machine .none}
    (acted : b.act (execute Primitives.pure n) (t.atWorkFrom c w) =
      .ok () u) :
    Turn Primitives.pure t
      { u with executing := (t.fetched c (.word w)).executing } :=
  h.turn present ((h.execute_fetched body n).trans (invoke_of_ok acted))

/-- A native word in a cell fails as it fails. -/
theorem Standing.fails_native (h : Standing c frames m t)
    (present : (m.dictionary.cells c.word)[c.index]? = some (.word w))
    (body : m.dictionary.body w = .builtin b) {n : Nat} {f : Fault}
    {u : Machine .none}
    (acted : b.act (execute Primitives.pure n) (t.atWorkFrom c w) =
      .error (.failed f) u) :
    Fails Primitives.pure t f { u.captureBlame with
      executing := (t.fetched c (.word w)).executing } :=
  h.fails present ((h.execute_fetched body n).trans (invoke_of_failed acted))

/-- With the same word at work in both machines, what it sees is the same. -/
theorem Standing.atWork (h : Standing c frames m t) (w : Handle) :
    AtWork w { m with executing := some w } (t.atWorkFrom c w) :=
  { (h.atWorkFrom w) with leading := rfl, following := rfl }

/-- **A quiet word in a cell** does to the machine what it does, and the
thread goes on behind it. -/
theorem Standing.quiet (h : Standing c frames m t)
    (present : (m.dictionary.cells c.word)[c.index]? = some (.word w))
    (body : m.dictionary.body w = .builtin b) (quiet : b.isQuiet = true)
    {m' : Machine .none}
    (acted : b.act (fun _ => starve) { m with executing := some w } =
      .ok () m') :
    ∃ t', Turn Primitives.pure t t' ∧
      Standing ⟨c.word, c.index + 1⟩ frames m' t' := by
  have alike := act_alike quiet (fun _ => starve)
    (execute Primitives.pure 0) (h.atWork w)
  have before := h.atWorkFrom w
  rw [acted] at alike
  generalize hs : b.act (execute Primitives.pure 0) (t.atWorkFrom c w) = s
    at alike
  cases alike with
  | @ok _ _ u after =>
    refine ⟨_, h.turn_native present body hs, ?_⟩
    exact { after.toAlike with
      low := le_of_eq_of_le after.following.base before.low
      inThread := after.following.cursor.trans before.inThread
      returns := (congrArg Stack.items after.following.returns).trans
        before.returns }

end Native

/-! ## Words that read the thread -/

/-- `lit` and `'` push the cell behind them. -/
theorem Standing.literal {w : Handle} {s : ThreadWord}
    (pushing : s = .lit ∨ s = .tick) (h : Standing c frames m t)
    (present : (m.dictionary.cells c.word)[c.index]? = some (.word w))
    (body : m.dictionary.body w = .builtin (.thread s)) {cell : Cell}
    (operand : (m.dictionary.cells c.word)[c.index + 1]? = some cell) :
    ∃ t', Turn Primitives.pure t t' ∧
      Standing ⟨c.word, c.index + 2⟩ frames
        { m with data := m.data.push cell.toValue } t' := by
  have before := h.atWorkFrom w
  have read : Act.fetchOperand (t.atWorkFrom c w) = .ok cell
      { t.atWorkFrom c w with cursor := some ⟨c.word, c.index + 2⟩ } := by
    rw [Act.fetchOperand_apply, before.inThread]
    dsimp only
    unfold Cursor.fetch
    rw [before.dictionary, operand]
  have pushes : ThreadWord.pushOperand (t.atWorkFrom c w) =
      .ok () { t.atWorkFrom c w with
        cursor := some ⟨c.word, c.index + 2⟩
        data := (t.atWorkFrom c w).data.push cell.toValue } := by
    rw [ThreadWord.pushOperand, Act.bind_apply, read]
    rfl
  have acted : (Builtin.thread s).act (execute Primitives.pure 0)
      (t.atWorkFrom c w) = .ok () { t.atWorkFrom c w with
        cursor := some ⟨c.word, c.index + 2⟩
        data := (t.atWorkFrom c w).data.push cell.toValue } := by
    rcases pushing with rfl | rfl
    · exact Act.run_of_ok pushes
    · exact Act.run_of_ok pushes
  refine ⟨_, h.turn_native present body acted, ?_⟩
  exact { before with
    data := congrArg (List.cons cell.toValue) before.data
    inThread := rfl }

/-- An offset is read from the thread. -/
theorem Standing.fetchOffset (h : Standing c frames m t) {k : Int64}
    (operand : (m.dictionary.cells c.word)[c.index]? =
      some (.literal (.int k))) :
    ThreadWord.fetchOffset t =
      .ok k { t with cursor := some ⟨c.word, c.index + 1⟩ } := by
  rw [ThreadWord.fetchOffset, Act.bind_apply, Act.fetchOperand_apply,
    h.inThread]
  dsimp only
  unfold Cursor.fetch
  rw [h.dictionary, operand]
  rfl

/-- A jump within the thread. -/
theorem Standing.jump (h : Standing c frames m t) {k : Int64} {d : Cursor}
    (leads : c.jump (m.dictionary.cells c.word).size k = .ok d) :
    Act.jump k t = .ok () { t with cursor := some d } := by
  rw [Act.jump_apply, h.inThread]
  dsimp only
  rw [h.dictionary, leads]

/-- `branch` jumps by the offset behind it. -/
theorem Standing.branch {w : Handle} {k : Int64} {d : Cursor}
    (h : Standing c frames m t)
    (present : (m.dictionary.cells c.word)[c.index]? = some (.word w))
    (body : m.dictionary.body w = .builtin (.thread .branch))
    (operand : (m.dictionary.cells c.word)[c.index + 1]? =
      some (.literal (.int k)))
    (leads : Cursor.jump ⟨c.word, c.index + 2⟩
      (m.dictionary.cells c.word).size k = .ok d) :
    ∃ t', Turn Primitives.pure t t' ∧ Standing d frames m t' := by
  have before := h.atWorkFrom w
  have read := before.fetchOffset operand
  have moved : Standing ⟨c.word, c.index + 2⟩ frames m
    { t.atWorkFrom c w with cursor := some ⟨c.word, c.index + 2⟩ } :=
    { before with inThread := rfl }
  have jumps : ThreadWord.jumpAlways (t.atWorkFrom c w) =
      .ok () { t.atWorkFrom c w with cursor := some d } := by
    rw [ThreadWord.jumpAlways, Act.bind_apply, read]
    exact moved.jump leads
  refine ⟨_, h.turn_native present body (n := 0) (Act.run_of_ok jumps), ?_⟩
  exact { before with inThread := rfl }

/-- `0branch` takes a value, and jumps if it is false. -/
theorem Standing.zeroBranch {w : Handle} {k : Int64} {d : Cursor} {v : Value}
    {data : Stack Value} (h : Standing c frames m t)
    (present : (m.dictionary.cells c.word)[c.index]? = some (.word w))
    (body : m.dictionary.body w = .builtin (.thread .zeroBranch))
    (operand : (m.dictionary.cells c.word)[c.index + 1]? =
      some (.literal (.int k)))
    (popped : m.data.pop? = some (v, data))
    (leads : v.isTruthy = false → Cursor.jump ⟨c.word, c.index + 2⟩
      (m.dictionary.cells c.word).size k = .ok d) :
    ∃ t', Turn Primitives.pure t t' ∧
      Standing (if v.isTruthy then ⟨c.word, c.index + 2⟩ else d) frames
        { m with data := data } t' := by
  have before := h.atWorkFrom w
  obtain ⟨data', popped', below⟩ := before.pop?_of_some popped
  have taken : Standing ⟨c.word, c.index + 1⟩ frames { m with data := data }
    { t.atWorkFrom c w with data := data' } := { before with data := below }
  have read := taken.fetchOffset operand
  have moved : Standing ⟨c.word, c.index + 2⟩ frames { m with data := data }
    { t.atWorkFrom c w with
      data := data'
      cursor := some ⟨c.word, c.index + 2⟩ } :=
    { taken with inThread := rfl }
  have jumps : ThreadWord.jumpUnless (t.atWorkFrom c w) =
      .ok () { t.atWorkFrom c w with
        data := data'
        cursor := some (if v.isTruthy then ⟨c.word, c.index + 2⟩
          else d) } := by
    rw [ThreadWord.jumpUnless, Act.bind_apply, Act.popTruth, Act.bind_apply,
      Act.pop_apply, popped']
    show (ThreadWord.fetchOffset >>= _)
      { t.atWorkFrom c w with data := data' } = _
    rw [Act.bind_apply, read]
    dsimp only
    by_cases truthy : v.isTruthy = true
    · rw [if_pos truthy, if_pos truthy]
      rfl
    · rw [if_neg truthy, if_neg truthy,
        moved.jump (leads (Bool.eq_false_iff.2 truthy))]
  refine ⟨_, h.turn_native present body (n := 0) (Act.run_of_ok jumps), ?_⟩
  exact { taken with inThread := rfl }

/-- `exit` goes back to the caller. -/
theorem Standing.exit {w : Handle} {caller : Cursor} {rest : List Frame}
    (h : Standing c (.call caller :: rest) m t)
    (present : (m.dictionary.cells c.word)[c.index]? = some (.word w))
    (body : m.dictionary.body w = .builtin (.thread .exit))
    (low : t.base ≤ rest.length) :
    ∃ t', Turn Primitives.pure t t' ∧ Standing caller rest m t' := by
  have before := h.atWorkFrom w
  have base : (t.atWorkFrom c w).base = t.base := by
    unfold Machine.atWorkFrom
    rw [fetched_eq]
  obtain ⟨below, popped, items⟩ := Stack.pop?_of_cons before.returns
  have above : ¬ (t.atWorkFrom c w).returns.depth ≤
      (t.atWorkFrom c w).base := by
    rw [(t.atWorkFrom c w).returns.depth_eq, before.returns, base]
    simp only [List.length_cons]
    omega
  have exits : Act.exitThread (t.atWorkFrom c w) =
      .ok () { t.atWorkFrom c w with
        returns := below
        cursor := some caller } := by
    rw [Act.exitThread_apply, before.inThread]
    dsimp only
    rw [if_neg above, popped]
  refine ⟨_, h.turn_native present body (n := 0) (Act.run_of_ok exits), ?_⟩
  exact { before with
    low := base ▸ low
    inThread := rfl
    returns := items }

/-- At the base of the run `exit` ends it. -/
theorem Standing.exit_run {w : Handle} (h : Standing c frames m t)
    (present : (m.dictionary.cells c.word)[c.index]? = some (.word w))
    (body : m.dictionary.body w = .builtin (.thread .exit))
    (bottom : frames.length ≤ t.base) :
    ∃ t', Turn Primitives.pure t t' ∧ t'.cursor = none ∧ Alike m t' ∧
      t'.returns.items = frames := by
  have before := h.atWorkFrom w
  have base : (t.atWorkFrom c w).base = t.base := by
    unfold Machine.atWorkFrom
    rw [fetched_eq]
  have atBase : (t.atWorkFrom c w).returns.depth ≤
      (t.atWorkFrom c w).base := by
    rw [(t.atWorkFrom c w).returns.depth_eq, before.returns, base]
    exact bottom
  have exits : Act.exitThread (t.atWorkFrom c w) =
      .ok () { t.atWorkFrom c w with cursor := none } := by
    rw [Act.exitThread_apply, before.inThread]
    dsimp only
    rw [if_pos atBase]
  exact ⟨_, h.turn_native present body (n := 0) (Act.run_of_ok exits), rfl,
    { before with }, before.returns⟩

/-- `exec` takes a word from the data stack, and what executing it does is
what the turn does. -/
theorem Standing.exec {w v : Handle} {data : Stack Value}
    (h : Standing c frames m t)
    (present : (m.dictionary.cells c.word)[c.index]? = some (.word w))
    (body : m.dictionary.body w = .builtin (.thread .exec))
    (popped : m.data.pop? = some (.word v, data)) :
    ∃ u e, Standing ⟨c.word, c.index + 1⟩ frames { m with data := data } u ∧
      (∀ n after, execute Primitives.pure n v u = .ok () after →
        Turn Primitives.pure t { after with executing := e }) ∧
      ∀ n f after, execute Primitives.pure n v u = .error (.failed f) after →
        Fails Primitives.pure t f
          { after.captureBlame with executing := e } := by
  have before := h.atWorkFrom w
  obtain ⟨data', popped', below⟩ := before.pop?_of_some popped
  have acted (n : Nat) : (Builtin.thread .exec).act
      (execute Primitives.pure n) (t.atWorkFrom c w) =
      execute Primitives.pure n v
        { t.atWorkFrom c w with data := data' } := by
    show ThreadWord.act _ .exec _ = _
    rw [ThreadWord.exec_apply, popped']
  refine ⟨{ t.atWorkFrom c w with data := data' },
    (t.fetched c (.word w)).executing, { before with data := below }, ?_, ?_⟩
  · intro n after done
    exact h.turn_native present body ((acted n).trans done)
  · intro n f after done
    exact h.fails_native present body ((acted n).trans done)

/-! ## Calls -/

/-- A place from which a thread calls `w` and after which it goes on at the
second cursor: a cell with the word, or the built-in `lit`, the word as its
operand, and the built-in `exec`. -/
inductive CallSite (d : Dictionary .none) (w : Handle) :
    Cursor → Cursor → Prop
  | cell {c : Cursor} (called : (d.cells c.word)[c.index]? = some (.word w)) :
      CallSite d w c ⟨c.word, c.index + 1⟩
  | exec {c : Cursor} {lit exec : Handle}
      (first : (d.cells c.word)[c.index]? = some (.word lit))
      (isLit : d.body lit = .builtin (.thread .lit))
      (second : (d.cells c.word)[c.index + 1]? = some (.word w))
      (third : (d.cells c.word)[c.index + 2]? = some (.word exec))
      (isExec : d.body exec = .builtin (.thread .exec)) :
      CallSite d w c ⟨c.word, c.index + 3⟩

/-- From a call site the thread is entered, and the cell behind the site is
what it returns to. -/
theorem CallSite.enters {w : Handle} {next : Cursor} {cells : Array Cell}
    (site : CallSite m.dictionary w c next) (h : Standing c frames m t)
    (composite : m.dictionary.body w = .thread cells) :
    ∃ u, Standing next frames m u ∧
      Reaches Primitives.pure t (u.descend next w) := by
  cases site with
  | cell called =>
    have after := h.fetched (.word w)
    refine ⟨_, after, .single (h.turn called (n := 1) ?_)⟩
    exact execute_thread 0 after.inThread (after.dictionary ▸ composite)
  | exec first isLit second third isExec =>
    obtain ⟨t₁, turn₁, h₁⟩ := h.literal (.inl rfl) first isLit second
    obtain ⟨data, popped, below⟩ :=
      Stack.pop?_push m.data (Cell.word w).toValue
    obtain ⟨u, e, h₂, turns, _⟩ := h₁.exec third isExec popped
    have entered := execute_thread 0 h₂.inThread (h₂.dictionary ▸ composite)
    refine ⟨{ u with executing := e }, ?_, .head turn₁ (.single ?_)⟩
    · exact { h₂ with data := h₂.data.trans below }
    · exact turns 1 _ entered

/-- A machine as it is, but in the middle of a thread. -/
def within (m : Machine .none) (c : Cursor) (returns : Stack Frame)
    (base : Nat) : Machine .none :=
  { m with cursor := some c, returns := returns, base := base }

/-- **Calling a thread from a thread is the same as running it at top
level.**  Let executing `w` at top level end well, without asking for the
greatest depth of the data stack and without stopping the machine.  Then from
the same machine in the middle of any thread, at a place that calls `w`, with
any return stack that is not lower than the base, finitely many turns lead to
the place after the call, with that return stack and with everything else as
the run at top level leaves it. -/
theorem call_eq_run {n : Nat} {w : Handle} {cells : Array Cell}
    {s s' : Machine .none} (idle : s.cursor = none) (top : s.base = 0)
    (empty : s.returns.items = [])
    (composite : s.dictionary.body w = .thread cells)
    (done : execute Primitives.pure n w s = .ok () s')
    (unfinished : s'.finished = false)
    (avoids : Avoids (.stack .maxDepth) (fun p => execute p n w) s)
    {next : Cursor} (site : CallSite s.dictionary w c next)
    (returns : Stack Frame) {base : Nat} (deep : base ≤ returns.depth) :
    ∃ t, Reaches Primitives.pure (s.within c returns base) t ∧
      t.cursor = some next ∧ t.returns.items = returns.items ∧
      Alike s' t := by
  have standing : Standing c returns.items s (s.within c returns base) :=
    { Alike.refl s with
      low := returns.depth_eq ▸ deep
      inThread := rfl
      returns := rfl }
  obtain ⟨u, h, enters⟩ := site.enters standing composite
  have beside : Beside next returns.items s.forgetBlame u := by
    rw [forgetBlame_eq]
    exact { h with top := top, idle := idle, emptied := empty }
  cases n with
  | zero => cases done
  | succ n =>
    have runs : startRun w (loop peakless n) s.forgetBlame = .ok () s' := by
      have barred := avoids.trans done
      dsimp only at barred
      rw [execute] at barred
      dsimp only at barred
      rw [← h.dictionary, beside.dictionary] at composite
      rw [composite, beside.idle] at barred
      exact barred
    have answers := startRun_beside n w beside
    rw [runs] at answers
    obtain ⟨t, reach, ended⟩ := answers
    rcases ended with back | stopped
    · exact ⟨t, enters.trans reach, back.inThread, back.returns,
        back.toAlike⟩
    · have told := stopped.told
      rw [unfinished] at told
      cases told

/-- Whether a cell calls a word can be looked up. -/
instance (cell : Option Cell) (w : Handle) :
    Decidable (cell = some (.word w)) :=
  match cell with
  | none => isFalse nofun
  | some (.literal _) => isFalse nofun
  | some (.word v) => decidable_of_iff (v = w) (by simp)

/-- Whether a word is a thread can be looked up. -/
instance (body : Body .none) : Decidable (∃ cells, body = .thread cells) :=
  match body with
  | .builtin _ => isFalse nofun
  | .host code => code.elim
  | .thread cells => isTrue ⟨cells, rfl⟩

/-- A machine with a word `twice`, a word `f` that calls it from its cell 2,
and 21 on the data stack. -/
def havingTwice : Machine .none := having ": twice dup + ; : f 3 twice ; 21"

/-- What becomes of it when `twice` is executed at top level. -/
def ranTwice : EStateM.Result (Halt Fault) (Machine .none) Unit :=
  execute Primitives.pure 50 ⟨62, "twice"⟩ havingTwice

/-- In `f`, with a value parked below, `twice` is called and comes back. -/
theorem twice_called_within_f :
    havingTwice.dictionary.names.find? "twice" = some ⟨62, "twice"⟩ ∧
    (leftBy ranTwice).data.depth = 1 ∧
    ∃ t, Reaches Primitives.pure
        (havingTwice.within ⟨⟨63, "f"⟩, 2⟩
          (Stack.empty.push (.value (.bool true))) 1) t ∧
      t.cursor = some ⟨⟨63, "f"⟩, 3⟩ ∧
      t.returns.items = [.value (.bool true)] ∧
      Alike (leftBy ranTwice) t := by
  have before : havingTwice.cursor = none ∧ havingTwice.base = 0 ∧
      havingTwice.returns.items.length = 0 ∧
      (∃ cells, havingTwice.dictionary.body ⟨62, "twice"⟩ = .thread cells) ∧
      (havingTwice.dictionary.cells ⟨63, "f"⟩)[2]? =
        some (.word ⟨62, "twice"⟩) ∧
      havingTwice.dictionary.names.find? "twice" = some ⟨62, "twice"⟩ := by
    decide +kernel
  have after : isOk ranTwice = true ∧ (leftBy ranTwice).finished = false ∧
      (leftBy ranTwice).data.depth = 1 ∧
      isOk (execute peakless 50 ⟨62, "twice"⟩ havingTwice) = true := by
    decide +kernel
  obtain ⟨idle, top, empty, ⟨cells, composite⟩, called, named⟩ := before
  obtain ⟨done, unfinished, depth, peak⟩ := after
  refine ⟨named, depth, ?_⟩
  exact call_eq_run (c := ⟨⟨63, "f"⟩, 2⟩) idle top
    (List.eq_nil_of_length_eq_zero empty) composite (eq_ok_of_isOk done)
    unfinished (avoids_of_isOk (execute_cut (Primitives.pure_cut.without _)
      _ (Nat.le_refl _)) peak) (.cell called) _ (Nat.le_refl _)

end Forth.Machine
