import Forth.Proofs.Alike
import Forth.Proofs.Turns

/-!
# A call within a thread is a run at top level

A thread can be run at top level, with nothing below it on the return stack,
or be called from a running thread, with the cell after the call and whatever
else below it.  In both cases it does the same, as long as it does not ask
what is below it: a run that would take back more than it parked fails with
an empty return stack.

The two are compared turn by turn.  While the run goes on, the machines are
alike and the return stack of the inner one is that of the outer one with
something below it (`Nested`).  Where the run at top level is over, the
nested one is back in the caller, at the cell after the call (`Beside`);
where a machine is told to stop, both are (`Stopped`).

* `execute_nested` and `step_nested` — one word, one turn;
* `loop_nested` — the whole run;
* `execute_beside` — executing any word at top level, against executing it
  within a thread.
-/

namespace Forth.Machine

open Relation

variable {E : Embedding}

/-- The faults by which a word can tell that it runs at top level. -/
def TellsTop (f : Fault) : Prop := f = .noThread ∨ f = .underflow .returns

/-- The native words without the one that tells how deep the data stack has
ever been. -/
abbrev peakless : Primitives .none :=
  Primitives.pure.without (· == .stack .maxDepth)

/-- All other words do what they do. -/
theorem peakless_builtin (f : Handle → Run .none Unit) {b : Builtin}
    (other : b ≠ .stack .maxDepth) : peakless.builtin f b = b.act f := by
  show (if (b == .stack .maxDepth) = true then starve else b.act f) = _
  rw [if_neg (by simpa using other)]

/-- A run at top level and the same run called from a thread that goes on at
`c`, with `frames` below. -/
structure Nested (c : Cursor) (frames : List Frame) (m t : Machine E) :
    Prop extends Alike m t where
  top : m.base = 0
  low : t.base ≤ frames.length
  running : m.cursor ≠ none
  cursor : t.cursor = m.cursor
  returns : t.returns.items = m.returns.items ++ .call c :: frames

/-- A machine in a thread at `c` with `frames` on its return stack, against
one whose control state is of no concern. -/
structure Standing (c : Cursor) (frames : List Frame) (m t : Machine E) :
    Prop extends Alike m t where
  low : t.base ≤ frames.length
  inThread : t.cursor = some c
  returns : t.returns.items = frames

/-- A machine in a thread, against one at top level with nothing on its
return stack. -/
structure Beside (c : Cursor) (frames : List Frame) (m t : Machine E) :
    Prop extends Standing c frames m t where
  top : m.base = 0
  idle : m.cursor = none
  emptied : m.returns.items = []

/-- Both machines were told to stop. -/
structure Stopped (m t : Machine E) : Prop extends Alike m t where
  told : m.finished = true
  halted : m.cursor = none
  halted' : t.cursor = none

/-- How it goes on after a turn. -/
def Continued (c : Cursor) (frames : List Frame) (m t : Machine E) : Prop :=
  Nested c frames m t ∨ Beside c frames m t ∨ Stopped m t

/-- A relation that does not look at who is at work and who is to blame. -/
def Blind (S : Machine E → Machine E → Prop) : Prop :=
  ∀ m t e e' b b', S m t →
    S { m with executing := e, blame := b }
      { t with executing := e', blame := b' }

theorem blind_continued (c : Cursor) (frames : List Frame) :
    Blind (E := E) (Continued c frames) := by
  intro m t e e' b b' h
  rcases h with nested | beside | stopped
  · exact .inl { nested with }
  · exact .inr (.inl { beside with })
  · exact .inr (.inr { stopped with })

/-- Native words on both sides, with themselves down as the ones at work. -/
theorem invoke_matches {S : Machine E → Machine E → Prop} (blind : Blind S)
    {excused : Fault → Prop} {w : Handle} {x y : Run E Unit}
    {m t : Machine E}
    (h : Matches S (Halt.Excused excused) (x { m with executing := some w })
      (y { t with executing := some w })) :
    Matches S (Halt.Excused excused) (invoke w x m) (invoke w y t) := by
  unfold Machine.invoke
  generalize x { m with executing := some w } = r at h
  generalize y { t with executing := some w } = s at h
  cases h with
  | ok related => exact .ok (blind _ _ _ _ _ _ related)
  | @error e m' t' related =>
    cases e with
    | starved => exact .excused trivial
    | failed f =>
      have blamed := blind m' t' m.executing t.executing m'.captureBlame.blame
        t'.captureBlame.blame related
      dsimp only
      rw [captureBlame_eq m', captureBlame_eq t']
      exact .error blamed
  | @excused e m' _ fine =>
    cases e with
    | starved => exact .excused trivial
    | failed f => exact .excused fine

/-! ## Words that use the return stack or the running thread -/

section Words

variable {c : Cursor} {frames : List Frame} {w : Handle} {m t : Machine E}

/-- A nested run with a native word at work. -/
structure NestedAt (c : Cursor) (frames : List Frame) (w : Handle)
    (m t : Machine E) : Prop extends Nested c frames m t where
  leading : m.executing = some w
  following : t.executing = some w

theorem NestedAt.atWork (h : NestedAt c frames w m t) : AtWork w m t :=
  { h with }

/-- Control that has not moved is still nested. -/
theorem Nested.of_besides {m' t' : Machine E} (h : Nested c frames m t)
    (after : Besides m t m' t') : Nested c frames m' t' where
  toAlike := after.toAlike
  top := after.leading.base.trans h.top
  low := by rw [after.following.base]; exact h.low
  running := by rw [after.leading.cursor]; exact h.running
  cursor := by rw [after.following.cursor, after.leading.cursor, h.cursor]
  returns := by rw [after.following.returns, after.leading.returns, h.returns]

/-- Failures are blamed on the same word. -/
theorem follows_fail_nested {α : Type} (message : String) :
    Follows (NestedAt c frames w) TellsTop (Act.fail message : Act E α)
      (Act.fail message) := by
  intro m t h
  rw [Act.fail_apply, Act.fail_apply,
    (atWork_congruence w).executingName h.atWork]
  exact .error h

theorem follows_push_nested (v : Value) :
    Follows (NestedAt c frames w) TellsTop (Act.push v : Act E Unit)
      (Act.push v) := by
  intro m t h
  exact .ok { h with data := congrArg (v :: ·) h.data }

theorem follows_pop_nested :
    Follows (NestedAt c frames w) TellsTop (Act.pop : Act E Value)
      Act.pop := by
  intro m t h
  rw [Act.pop_apply, Act.pop_apply]
  rcases h.pop? with ⟨empty, empty'⟩ | ⟨v, _, _, popped, popped', below⟩
  · rw [empty, empty']
    exact .error h
  · rw [popped, popped']
    exact .ok { h with data := below }

/-- What was parked in the run is the same on both sides; below it there is
nothing at top level. -/
theorem follows_takeParked_nested :
    Follows (NestedAt c frames w) TellsTop
      (StackWord.takeParked : Act E Value) StackWord.takeParked := by
  intro m t h
  rw [StackWord.takeParked, Act.bind_apply, Act.bind_apply,
    Act.popFrame_apply, Act.popFrame_apply]
  have returns := h.returns
  cases hm : m.returns.items with
  | nil =>
    rw [Stack.pop?_of_nil hm]
    exact .excused (.inr rfl)
  | cons f rest =>
    rw [hm] at returns
    obtain ⟨below, popped, items⟩ := Stack.pop?_of_cons hm
    obtain ⟨below', popped', items'⟩ := Stack.pop?_of_cons returns
    rw [popped, popped']
    cases f with
    | value v =>
      exact .ok { h with returns := by rw [items', items]; rfl }
    | call k =>
      refine .error { h with returns := ?_ }
      show .call k :: below'.items = (.call k :: below.items) ++ _
      rw [items', items]
      rfl

/-- The same cell is read. -/
theorem follows_fetchOperand_nested :
    Follows (NestedAt c frames w) TellsTop (Act.fetchOperand : Act E Cell)
      Act.fetchOperand := by
  intro m t h
  rw [Act.fetchOperand_apply, Act.fetchOperand_apply, h.cursor, h.dictionary]
  split
  · exact .excused (.inl rfl)
  · split
    · exact .error h
    · exact .ok { h with
        dictionary := rfl
        running := Option.some_ne_none _
        cursor := rfl }

theorem follows_fetchOffset_nested :
    Follows (NestedAt c frames w) TellsTop
      (ThreadWord.fetchOffset : Act E Int64) ThreadWord.fetchOffset := by
  refine follows_fetchOperand_nested.bind fun cell => ?_
  split
  · exact Follows.pure _
  · exact follows_fail_nested _

/-- The same jump is made. -/
theorem follows_jump_nested (offset : Int64) :
    Follows (NestedAt c frames w) TellsTop (Act.jump offset : Act E Unit)
      (Act.jump offset) := by
  intro m t h
  rw [Act.jump_apply, Act.jump_apply, h.cursor, h.dictionary]
  split
  · exact .excused (.inl rfl)
  · split
    · exact .error h
    · exact .ok { h with
        dictionary := rfl
        running := Option.some_ne_none _
        cursor := rfl }

/-- **A thread exits.**  At the bottom of its return stack the run at top
level is over, and the nested one goes back to the caller. -/
theorem exitThread_nested (h : Nested c frames m t) :
    Matches (Continued c frames) TellsTop (Act.exitThread m)
      (Act.exitThread t) := by
  obtain ⟨k, hk⟩ := Option.ne_none_iff_exists'.1 h.running
  have hk' := h.cursor.trans hk
  have returns := h.returns
  have low := h.low
  have depth := t.returns.depth_eq
  rw [Act.exitThread_apply, Act.exitThread_apply, hk, hk']
  dsimp only
  cases hm : m.returns.items with
  | nil =>
    rw [hm] at returns
    obtain ⟨below', popped', items'⟩ := Stack.pop?_of_cons returns
    have atBase : m.returns.depth ≤ m.base := by
      rw [m.returns.depth_eq, hm]
      exact Nat.zero_le _
    have above : ¬ t.returns.depth ≤ t.base := by
      rw [depth, returns]
      simp only [List.nil_append, List.length_cons]
      omega
    rw [if_pos atBase, if_neg above, popped']
    exact .ok (.inr (.inl { h with
      idle := rfl
      inThread := rfl
      emptied := hm
      returns := items' }))
  | cons f rest =>
    rw [hm] at returns
    obtain ⟨below, popped, items⟩ := Stack.pop?_of_cons hm
    obtain ⟨below', popped', items'⟩ := Stack.pop?_of_cons returns
    have above : ¬ m.returns.depth ≤ m.base := by
      rw [m.returns.depth_eq, hm, h.top]
      simp
    have above' : ¬ t.returns.depth ≤ t.base := by
      rw [depth, returns]
      simp only [List.length_append, List.length_cons]
      omega
    rw [if_neg above, if_neg above', popped, popped']
    have frames_eq : below'.items = below.items ++ .call c :: frames := by
      rw [items', items]
      rfl
    cases f with
    | call caller =>
      exact .ok (.inl { h with
        running := Option.some_ne_none _
        cursor := rfl
        returns := frames_eq })
    | value v =>
      exact .error (.inl { h with
        running := Option.some_ne_none _
        cursor := rfl
        returns := frames_eq })

/-- Leaving a thread as a turn. -/
theorem exitThread_run_nested (h : Nested c frames m t) :
    Matches (Continued c frames) (Halt.Excused TellsTop)
      (Act.exitThread.run m) (Act.exitThread.run t) := by
  have exits := exitThread_nested h
  rw [Act.run_apply, Act.run_apply]
  generalize Act.exitThread m = r at exits
  generalize Act.exitThread t = s at exits
  cases exits with
  | ok related => exact .ok related
  | error related => exact .error related
  | excused fine => exact .excused fine

/-- The words of a thread, `exec` apart. -/
theorem threading_nested (s : ThreadWord) (notExec : s ≠ .exec)
    (f g : Handle → Run E Unit) (h : NestedAt c frames w m t) :
    Matches (Continued c frames) (Halt.Excused TellsTop) (s.act f m)
      (s.act g t) := by
  -- A word that stays in its thread.
  have stays {x : Act E Unit} (follows : Follows (NestedAt c frames w)
      TellsTop x x) : Matches (Continued c frames) (Halt.Excused TellsTop)
      (x.run m) (x.run t) :=
    (follows.run (fun _ fine => fine) m t h).mono
      (fun _ _ after => .inl after.toNested) fun _ fine => fine
  have pushes : Follows (NestedAt c frames w) TellsTop
      (ThreadWord.pushOperand : Act E Unit) ThreadWord.pushOperand :=
    follows_fetchOperand_nested.bind fun _ => follows_push_nested _
  cases s with
  | lit => exact stays pushes
  | tick => exact stays pushes
  | branch =>
    exact stays (follows_fetchOffset_nested.bind follows_jump_nested)
  | zeroBranch =>
    have popTruth : Follows (NestedAt c frames w) TellsTop
        (Act.popTruth : Act E Bool) Act.popTruth :=
      follows_pop_nested.bind fun _ => Follows.pure _
    refine stays (popTruth.bind fun condition =>
      follows_fetchOffset_nested.bind fun offset => ?_)
    split
    · exact Follows.pure _
    · exact follows_jump_nested offset
  | exit =>
    exact exitThread_run_nested h.toNested
  | exec => exact absurd rfl notExec
  | bye =>
    exact .ok (.inr (.inr { h with
      finished := rfl
      told := rfl
      halted := rfl
      halted' := rfl }))

/-- The words that park values and take them back. -/
theorem parking_nested (s : StackWord)
    (loud : (Builtin.stack s).isQuiet = false) (notPeak : s ≠ .maxDepth) :
    Follows (NestedAt c frames w) TellsTop (s.act : Act E Unit) s.act := by
  cases s with
  | toReturn =>
    refine follows_pop_nested.bind fun v m t h => ?_
    refine .ok { h with returns := ?_ }
    show .value v :: t.returns.items = .value v :: m.returns.items ++ _
    rw [h.returns]
    rfl
  | fromReturn =>
    exact follows_takeParked_nested.bind fun _ => follows_push_nested _
  | dropReturn =>
    exact follows_takeParked_nested.bind fun _ =>
      (follows_push_nested _).bind fun _ =>
        follows_pop_nested.bind fun _ => Follows.pure _
  | maxDepth => exact absurd rfl notPeak
  | _ => cases loud

end Words

/-! ## One word and one turn -/

section Turns

variable {c : Cursor} {frames : List Frame} {m t : Machine .none}

/-- A built-in word within a nested run. -/
theorem act_nested {f g : Handle → Run .none Unit} {w : Handle}
    (calls : ∀ v m t, Nested c frames m t →
      Matches (Continued c frames) (Halt.Excused TellsTop) (f v m) (g v t))
    (b : Builtin) (h : NestedAt c frames w m t) :
    Matches (Continued c frames) (Halt.Excused TellsTop)
      (peakless.builtin f b m) (Primitives.pure.builtin g b t) := by
  by_cases peak : b = .stack .maxDepth
  · subst peak
    exact .excused trivial
  rw [peakless_builtin f peak]
  show Matches _ _ (b.act f m) (b.act g t)
  by_cases quiet : b.isQuiet = true
  · exact (act_alike quiet f g h.atWork).mono
      (fun _ _ after => .inl (h.toNested.of_besides after)) nofun
  · cases b with
    | stack s =>
      have follows : Follows (NestedAt c frames w) TellsTop
          (s.act : Act .none Unit) s.act :=
        parking_nested s (Bool.eq_false_iff.2 quiet)
          (fun h => peak (congrArg _ h))
      exact (follows.run (fun _ fine => fine) m t h).mono
        (fun _ _ after => .inl after.toNested) fun _ fine => fine
    | thread s =>
      by_cases isExec : s = .exec
      · subst isExec
        show Matches _ _ (ThreadWord.act f .exec m)
          (ThreadWord.act g .exec t)
        rw [ThreadWord.exec_apply, ThreadWord.exec_apply]
        rcases h.pop? with ⟨empty, empty'⟩ |
          ⟨v, data, data', popped, popped', below⟩
        · rw [empty, empty']
          exact .error (.inl h.toNested)
        · rw [popped, popped']
          have after : Nested c frames { m with data := data }
            { t with data := data' } := { h.toNested with data := below }
          cases v with
          | word v => exact calls v _ _ after
          | _ => exact .error (.inl after)
      · exact threading_nested s isExec f g h
    | _ => exact absurd rfl quiet

/-- **A word within a nested run** does what it does at top level. -/
theorem execute_nested (n : Nat) (w : Handle) (m t : Machine .none)
    (h : Nested c frames m t) :
    Matches (Continued c frames) (Halt.Excused TellsTop)
      (execute peakless n w m) (execute Primitives.pure n w t) := by
  induction n generalizing w m t with
  | zero => exact .excused trivial
  | succ n ih =>
    have running := h.running
    rw [execute, execute]
    dsimp only
    rw [forgetBlame_of_running running,
      forgetBlame_of_running (h.cursor ▸ running), h.dictionary]
    split
    · next b _ =>
      apply invoke_matches (blind_continued c frames)
      exact act_nested ih b { h with leading := rfl, following := rfl }
    · next code _ => exact code.elim
    · obtain ⟨k, hk⟩ := Option.ne_none_iff_exists'.1 running
      rw [h.cursor, hk]
      refine .ok (.inl { h with
        running := Option.some_ne_none _
        cursor := rfl
        returns := ?_ })
      show .call k :: t.returns.items = .call k :: m.returns.items ++ _
      rw [h.returns]
      rfl

/-- Fetching a cell keeps a run nested. -/
theorem Nested.fetched (h : Nested c frames m t) (k : Cursor) (cell : Cell) :
    Nested c frames (m.fetched k cell) (t.fetched k cell) := by
  rw [fetched_eq m, fetched_eq t]
  exact { h with
    running := Option.some_ne_none _
    cursor := rfl }

/-- **A turn within a nested run** does what it does at top level. -/
theorem step_nested (n : Nat) {k : Cursor} (hk : m.cursor = some k)
    (h : Nested c frames m t) :
    Matches (Continued c frames) (Halt.Excused TellsTop)
      (step (execute peakless n) k m)
      (step (execute Primitives.pure n) k t) := by
  by_cases atEnd : (m.dictionary.cells k.word).size ≤ k.index
  · rw [step_of_end _ atEnd, step_of_end _ (h.dictionary ▸ atEnd)]
    exact exitThread_run_nested h
  · obtain ⟨cell, present⟩ := exists_cell atEnd
    have after := h.fetched k cell
    rw [step_of_cell _ hk present, step_of_cell _ (h.cursor.trans hk)
      (h.dictionary ▸ present)]
    cases cell with
    | word w => exact execute_nested n w _ _ after
    | literal v =>
      exact .ok (.inl { after with
        data := congrArg (List.cons v) after.data })

end Turns

/-! ## Whole runs -/

/-- What has become of a run called from a thread, given the result of the
same run at top level.  Nothing is asked after some faults. -/
def Answers (excused : Fault → Prop) (c : Cursor) (frames : List Frame)
    (r : EStateM.Result (Halt Fault) (Machine .none) Unit)
    (t : Machine .none) : Prop :=
  match r with
  | .ok () m' => ∃ t', Reaches Primitives.pure t t' ∧
      (Beside c frames m' t' ∨ Stopped m' t')
  | .error (.failed f) m' => excused f ∨
      ∃ x t', Reaches Primitives.pure t x ∧ Fails Primitives.pure x f t' ∧
        Alike m' t'
  | .error .starved _ => True

/-- What comes after some turns comes after them. -/
theorem Answers.of_reaches {excused : Fault → Prop} {c : Cursor}
    {frames : List Frame}
    {r : EStateM.Result (Halt Fault) (Machine .none) Unit}
    {t u : Machine .none} (turns : Reaches Primitives.pure t u)
    (h : Answers excused c frames r u) : Answers excused c frames r t := by
  unfold Answers at h ⊢
  split at h
  · obtain ⟨t', reach, rest⟩ := h
    exact ⟨t', turns.trans reach, rest⟩
  · rcases h with fine | ⟨x, t', reach, rest⟩
    · exact .inl fine
    · exact .inr ⟨x, t', turns.trans reach, rest⟩
  · exact trivial

theorem Continued.toAlike {c : Cursor} {frames : List Frame}
    {m t : Machine E} (h : Continued c frames m t) : Alike m t := by
  rcases h with nested | beside | stopped
  · exact nested.toAlike
  · exact beside.toAlike
  · exact stopped.toAlike

/-- **A whole run** called from a thread does what it does at top level, and
goes back to the caller. -/
theorem loop_nested {c : Cursor} {frames : List Frame} (n : Nat)
    {m t : Machine .none} (h : Continued c frames m t) :
    Answers TellsTop c frames (loop peakless n m) t := by
  induction n generalizing m t with
  | zero => exact trivial
  | succ n ih =>
    rcases h with nested | ended
    · obtain ⟨k, hk⟩ := Option.ne_none_iff_exists'.1 nested.running
      have turn := step_nested n hk nested
      have hk' := nested.cursor.trans hk
      rw [loop_of_some peakless n hk]
      generalize hr : step (execute peakless n) k m = r at turn
      generalize hs : step (execute Primitives.pure n) k t = s at turn
      cases turn with
      | ok related => exact (ih related).of_reaches (.single ⟨n, k, hk', hs⟩)
      | @error e m' t' related =>
        cases e with
        | starved => exact trivial
        | failed f =>
          exact .inr ⟨t, t', .refl, ⟨n, k, hk', hs⟩, related.toAlike⟩
      | @excused e m' s fine =>
        cases e with
        | starved => exact trivial
        | failed f => exact .inl fine
    · have halted : m.cursor = none := by
        rcases ended with beside | stopped
        · exact beside.idle
        · exact stopped.halted
      rw [loop_of_none peakless n halted]
      exact ⟨t, .refl, ended⟩

/-! ## From top level and from a thread -/

section Executing

variable {c : Cursor} {frames : List Frame} {m t : Machine .none}

/-- Where a word at top level has come to an end without starting a run. -/
def Ended (c : Cursor) (frames : List Frame) (m t : Machine .none) : Prop :=
  Beside c frames m t ∨ Stopped m t

theorem blind_ended : Blind (Ended c frames) := by
  intro m t e e' b b' h
  rcases h with beside | stopped
  · exact .inl { beside with }
  · exact .inr { stopped with }

/-- How executing a word within a thread answers to executing it at top
level: it is a native word and does the same; or, at top level, it has parked
a value; or it is a thread, and the one that was called answers to the whole
run at top level. -/
inductive Settles (c : Cursor) (frames : List Frame) :
    EStateM.Result (Halt Fault) (Machine .none) Unit →
    EStateM.Result (Halt Fault) (Machine .none) Unit → Prop
  | matched {r s} (h : Matches (Ended c frames) (Halt.Excused TellsTop) r s) :
      Settles c frames r s
  | parked {m' s} (h : m'.returns.items ≠ []) :
      Settles c frames (.ok () m') s
  | entered {r t₁}
      (h : ∀ e b, Answers TellsTop c frames r
        { t₁ with executing := e, blame := b }) :
      Settles c frames r (.ok () t₁)

/-- Who is at work and who is to blame at top level does not matter. -/
theorem Answers.invoke {w : Handle} {x : Run .none Unit}
    (h : Answers TellsTop c frames (x { m with executing := some w }) t) :
    Answers TellsTop c frames (invoke w x m) t := by
  unfold Machine.invoke
  generalize x { m with executing := some w } = r at h
  match r, h with
  | .ok () m', ⟨t', reach, ended⟩ =>
    exact ⟨t', reach, blind_ended _ _ _ t'.executing m'.blame t'.blame ended⟩
  | .error (.failed f) m', .inl tells => exact .inl tells
  | .error (.failed f) m', .inr ⟨x, t', reach, fails, alike⟩ =>
    refine .inr ⟨x, t', reach, fails, ?_⟩
    rw [captureBlame_eq]
    exact { alike with }
  | .error .starved m', _ => exact trivial

/-- Native words on both sides, with themselves down as the ones at work. -/
theorem Settles.invoke {w : Handle} {x y : Run .none Unit}
    (h : Settles c frames (x { m with executing := some w })
      (y { t with executing := some w })) :
    Settles c frames (invoke w x m) (invoke w y t) := by
  generalize hr : x { m with executing := some w } = r at h
  generalize hs : y { t with executing := some w } = s at h
  cases h with
  | matched h =>
    refine .matched (invoke_matches blind_ended ?_)
    rw [hr, hs]
    exact h
  | parked h =>
    unfold Machine.invoke
    rw [hr]
    exact .parked h
  | @entered r t₁ h =>
    have called : Machine.invoke w y t =
        .ok () { t₁ with executing := t.executing } := by
      unfold Machine.invoke
      rw [hs]
    rw [called]
    exact .entered fun e b => Answers.invoke (hr ▸ h e b)

/-- **Starting a run at top level, and calling the thread from another.** -/
theorem startRun_beside (n : Nat) (w : Handle) (h : Beside c frames m t) :
    Answers TellsTop c frames (startRun w (loop peakless n) m)
      (t.descend c w) := by
  have depth : m.returns.depth = 0 := by
    rw [m.returns.depth_eq, h.emptied]
    rfl
  have nested : Nested c frames
      { m with base := m.returns.depth, cursor := some (.start w) }
      (t.descend c w) := { h with
    top := depth
    running := Option.some_ne_none _
    cursor := rfl
    returns := by
      show .call c :: t.returns.items = m.returns.items ++ .call c :: frames
      rw [h.emptied, h.returns]
      rfl }
  have answers := loop_nested n (.inl nested)
  unfold startRun
  dsimp only
  generalize loop peakless n
    { m with base := m.returns.depth, cursor := some (.start w) } = r
    at answers
  match r, answers with
  | .ok () m', ⟨t', reach, .inl beside⟩ =>
    exact ⟨t', reach, .inl { beside with top := h.top, idle := rfl }⟩
  | .ok () m', ⟨t', reach, .inr stopped⟩ =>
    exact ⟨t', reach, .inr { stopped with halted := rfl }⟩
  | .error (.failed f) m', .inl tells => exact .inl tells
  | .error (.failed f) m', .inr ⟨x, t', reach, fails, alike⟩ =>
    refine .inr ⟨x, t', reach, fails, ?_⟩
    rw [captureBlame_eq]
    exact { alike with }
  | .error .starved m', _ => exact trivial

/-- Control that has not moved is still beside. -/
theorem Beside.of_besides {m' t' : Machine .none} (h : Beside c frames m t)
    (after : Besides m t m' t') : Beside c frames m' t' where
  toAlike := after.toAlike
  top := after.leading.base.trans h.top
  low := by rw [after.following.base]; exact h.low
  idle := by rw [after.leading.cursor]; exact h.idle
  inThread := by rw [after.following.cursor]; exact h.inThread
  emptied := by rw [after.leading.returns]; exact h.emptied
  returns := by rw [after.following.returns]; exact h.returns

/-- The words of a thread, `exec` apart, tell that there is none. -/
theorem threading_beside (s : ThreadWord) (notExec : s ≠ .exec)
    (f g : Handle → Run .none Unit) (h : Beside c frames m t) :
    Matches (Ended c frames) (Halt.Excused TellsTop) (s.act f m)
      (s.act g t) := by
  have idle := h.idle
  have stuck {x : Act .none Unit} {m' : Machine .none}
      {r : EStateM.Result (Halt Fault) (Machine .none) Unit}
      (h : x m = .error .noThread m') :
      Matches (Ended c frames) (Halt.Excused TellsTop) (x.run m) r := by
    rw [Act.run_apply, h]
    exact .excused (.inl rfl)
  have pushes : ThreadWord.pushOperand m = .error .noThread m := by
    rw [ThreadWord.pushOperand, Act.bind_apply, Act.fetchOperand_apply, idle]
  cases s with
  | lit => exact stuck pushes
  | tick => exact stuck pushes
  | branch =>
    have jumps : ThreadWord.jumpAlways m = .error .noThread m := by
      rw [ThreadWord.jumpAlways, Act.bind_apply, fetchOffset_idle idle]
    exact stuck jumps
  | zeroBranch =>
    show Matches _ _ ((ThreadWord.jumpUnless : Act .none Unit).run m)
      ((ThreadWord.jumpUnless : Act .none Unit).run t)
    rcases h.pop? with ⟨empty, empty'⟩ | ⟨v, data, _, popped, _, _⟩
    · have fails {u : Machine .none} (empty : u.data.pop? = none) :
          ThreadWord.jumpUnless u = .error (.underflow .data) u := by
        rw [ThreadWord.jumpUnless, Act.bind_apply, Act.popTruth,
          Act.bind_apply, Act.pop_apply, empty]
      rw [Act.run_apply, Act.run_apply, fails empty, fails empty']
      exact .error (.inl h)
    · have jumps : ThreadWord.jumpUnless m =
          .error .noThread { m with data := data } := by
        rw [ThreadWord.jumpUnless, Act.bind_apply, Act.popTruth,
          Act.bind_apply, Act.pop_apply, popped]
        show (ThreadWord.fetchOffset >>= _) { m with data := data } = _
        rw [Act.bind_apply, fetchOffset_idle (m := { m with data := data })
          idle]
      exact stuck jumps
  | exit =>
    have exits : Act.exitThread m = .error .noThread m := by
      rw [Act.exitThread_apply, idle]
    exact stuck exits
  | exec => exact absurd rfl notExec
  | bye =>
    exact .ok (.inr { h with
      finished := rfl
      told := rfl
      halted := rfl
      halted' := rfl })

/-- The words that park values and take them back find nothing to take. -/
theorem parking_beside (s : StackWord)
    (loud : (Builtin.stack s).isQuiet = false) (notPeak : s ≠ .maxDepth)
    (h : Beside c frames m t) :
    Settles c frames (s.act.run m) (s.act.run t) := by
  have bare : (StackWord.takeParked : Act .none Value) m =
      .error (.underflow .returns) m := by
    rw [StackWord.takeParked, Act.bind_apply, Act.popFrame_apply,
      Stack.pop?_of_nil h.emptied]
  rw [Act.run_apply, Act.run_apply]
  cases s with
  | toReturn =>
    rw [StackWord.act, Act.bind_apply, Act.bind_apply, Act.pop_apply,
      Act.pop_apply]
    rcases h.pop? with ⟨empty, empty'⟩ | ⟨v, data, _, popped, _, _⟩
    · rw [empty, empty']
      exact .matched (.error (.inl h))
    · rw [popped]
      exact .parked (List.cons_ne_nil _ _)
  | fromReturn =>
    rw [StackWord.act, Act.bind_apply, bare]
    exact .matched (.excused (.inr rfl))
  | dropReturn =>
    rw [StackWord.act, Act.bind_apply, bare]
    exact .matched (.excused (.inr rfl))
  | maxDepth => exact absurd rfl notPeak
  | _ => cases loud

/-- A built-in word at top level and within a thread. -/
theorem act_beside {f g : Handle → Run .none Unit} {w : Handle}
    (calls : ∀ v m t, Beside c frames m t → Settles c frames (f v m) (g v t))
    (b : Builtin) (h : Beside c frames m t) (leading : m.executing = some w)
    (following : t.executing = some w) :
    Settles c frames (peakless.builtin f b m)
      (Primitives.pure.builtin g b t) := by
  by_cases peak : b = .stack .maxDepth
  · subst peak
    exact .matched (.excused trivial)
  rw [peakless_builtin f peak]
  show Settles c frames (b.act f m) (b.act g t)
  by_cases quiet : b.isQuiet = true
  · have atWork : AtWork w m t :=
      { h with leading := leading, following := following }
    exact .matched ((act_alike quiet f g atWork).mono
      (fun _ _ after => .inl (h.of_besides after)) nofun)
  · cases b with
    | stack s =>
      exact parking_beside s (Bool.eq_false_iff.2 quiet)
        (fun h => peak (congrArg _ h)) h
    | thread s =>
      by_cases isExec : s = .exec
      · subst isExec
        show Settles c frames (ThreadWord.act f .exec m)
          (ThreadWord.act g .exec t)
        rw [ThreadWord.exec_apply, ThreadWord.exec_apply]
        rcases h.pop? with ⟨empty, empty'⟩ |
          ⟨v, data, data', popped, popped', below⟩
        · rw [empty, empty']
          exact .matched (.error (.inl h))
        · rw [popped, popped']
          have after : Beside c frames { m with data := data }
            { t with data := data' } := { h with data := below }
          cases v with
          | word v => exact calls v _ _ after
          | _ => exact .matched (.error (.inl after))
      · exact .matched (threading_beside s isExec f g h)
    | _ => exact absurd rfl quiet

/-- **Any word, at top level and within a thread.** -/
theorem execute_beside (n : Nat) (w : Handle) (m t : Machine .none)
    (h : Beside c frames m t) :
    Settles c frames (execute peakless n w m)
      (execute Primitives.pure n w t) := by
  induction n generalizing w m t with
  | zero => exact .matched (.excused trivial)
  | succ n ih =>
    have forgot : Beside c frames m.forgetBlame t := by
      rw [forgetBlame_eq]
      exact { h with }
    have inThread := h.inThread
    rw [execute, execute]
    dsimp only
    rw [forgetBlame_of_running (m := t) (by simp [inThread]),
      ← forgot.dictionary]
    split
    · next b _ =>
      apply Settles.invoke
      exact act_beside (w := w) ih b { forgot with } rfl rfl
    · next code _ => exact code.elim
    · rw [forgot.idle, inThread]
      refine .entered fun e b => ?_
      exact startRun_beside n w (t := { t with executing := e, blame := b })
        { forgot with }

end Executing

end Forth.Machine
