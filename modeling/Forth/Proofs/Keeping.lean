import Forth.Proofs.Moves

/-!
# What every word keeps

A property of machines is **kept** by a computation if it holds of the
machine that the computation leaves behind, however it ends, whenever it held
before.  A built-in word is put together from touches, from parking a value
and taking one back, from reading the thread and jumping in it, and two words
of their own kind leave a thread: `exit` and `bye`.  So it is enough to look
at these (`Keeper`), and every word keeps the property (`Keeper.act`).

A property in which control has no part is kept by everything that is
executed, whichever words are within reach (`Steadfast.execute_loop`); so
nothing that is executed changes what has been reported.

Another use is what execution puts back.  The word at work, the base of the
run and whether a thread is running at all are saved and restored in several
places, and `execute_restored` says that whoever executes a word finds them
as they were, also after a failure.
-/

namespace Forth

variable {E : Embedding} {ε α β : Type}

namespace Machine

/-- A computation keeps a property, however it ends. -/
def Keeps (P : Machine E → Prop) (x : EStateM ε (Machine E) α) : Prop :=
  ∀ m, P m → P (leftBy (x m))

namespace Keeps

variable {P : Machine E → Prop}

/-- One after the other. -/
theorem bind {x : EStateM ε (Machine E) α}
    {f : α → EStateM ε (Machine E) β} (first : Keeps P x)
    (next : ∀ a, Keeps P (f a)) : Keeps P (x >>= f) := by
  intro m h
  have hfirst := first m h
  rw [Act.bind_apply]
  generalize x m = r at hfirst
  cases r with
  | ok a after => exact next a after hfirst
  | error e after => exact hfirst

/-- A computation that does nothing. -/
theorem pure (a : α) : Keeps P (Pure.pure a : EStateM ε (Machine E) α) :=
  fun _ h => h

/-- A computation that fails at once. -/
theorem throw (e : ε) :
    Keeps P (MonadExcept.throw e : EStateM ε (Machine E) α) :=
  fun _ h => h

/-- An action among computations that may starve. -/
theorem run {x : Act E α} (h : Keeps P x) : Keeps P x.run := by
  intro m hm
  have hx := h m hm
  rw [Act.run_apply]
  generalize x m = r at hx
  cases r <;> exact hx

end Keeps

/-- A quiet stack word, by itself. -/
theorem touches_stack {w : StackWord}
    (quiet : (Builtin.stack w).isQuiet = true) (m : Machine E) :
    Touches m (leftBy (w.act m)) := by
  have touches := Builtin.touches_act (fun _ => starve) quiet m
  have same : leftBy (Builtin.act (fun _ => starve) (.stack w) m) =
      leftBy (w.act m) := by
    show leftBy (w.act.run m) = _
    rw [Act.run_apply]
    cases w.act m <;> rfl
  exact same ▸ touches

/-- What the built-in words are put together from keeps a property. -/
structure Keeper (P : Machine E → Prop) : Prop where
  touch : ∀ {m t : Machine E}, Touch m t → P m → P t
  park : ∀ v, Keeps P (Act.pushFrame (.value v) : Act E Unit)
  unpark : Keeps P (StackWord.takeParked : Act E Value)
  fetch : Keeps P (Act.fetchOperand : Act E Cell)
  jump : ∀ offset, Keeps P (Act.jump offset : Act E Unit)

namespace Keeper

variable {P : Machine E → Prop}

theorem touches (k : Keeper P) {m t : Machine E} (h : Touches m t)
    (hm : P m) : P t := by
  induction h with
  | refl => exact hm
  | tail _ touch ih => exact k.touch touch ih

/-- Putting a value on the data stack. -/
theorem push (k : Keeper P) (v : Value) :
    Keeps P (Act.push v : Act E Unit) :=
  fun m => k.touch (.aside m _ _ _ _ _ _ _)

/-- Taking a value from the data stack. -/
theorem pop (k : Keeper P) : Keeps P (Act.pop : Act E Value) :=
  fun m => k.touches (Act.touches_pop m)

/-- Taking a word from the data stack. -/
theorem popWord (k : Keeper P) : Keeps P (Act.popWord : Act E Handle) := by
  refine k.pop.bind fun v => ?_
  cases v with
  | word w => exact Keeps.pure _
  | _ => exact Keeps.throw _

/-- Reading the offset of a branch. -/
theorem fetchOffset (k : Keeper P) :
    Keeps P (ThreadWord.fetchOffset : Act E Int64) := by
  refine k.fetch.bind fun c => ?_
  split
  · exact Keeps.pure _
  · exact fun _ h => h

/-- The words of a thread. -/
theorem threading (k : Keeper P) {call : Handle → Run E Unit}
    {w : ThreadWord} (exit : w = .exit → Keeps P (Act.exitThread : Act E Unit))
    (bye : w = .bye → ∀ m, P m → P m.finish)
    (exec : w = .exec → ∀ v, Keeps P (call v)) : Keeps P (w.act call) := by
  cases w with
  | lit | tick => exact (k.fetch.bind fun _ => k.push _).run
  | branch => exact (k.fetchOffset.bind fun _ => k.jump _).run
  | zeroBranch =>
    refine ((k.pop.bind fun _ => Keeps.pure _).bind fun condition =>
      k.fetchOffset.bind fun offset => ?_).run
    cases condition with
    | true => exact Keeps.pure _
    | false => exact k.jump _
  | exit => exact (exit rfl).run
  | exec => exact k.popWord.run.bind (exec rfl)
  | bye => exact bye rfl

/-- The stack words. -/
theorem stacking (k : Keeper P) (w : StackWord) :
    Keeps P (w.act : Act E Unit) := by
  by_cases quiet : (Builtin.stack w).isQuiet = true
  · exact fun m => k.touches (touches_stack quiet m)
  · cases w with
    | maxDepth => exact fun m => k.push _ m
    | toReturn => exact k.pop.bind fun _ => k.park _
    | fromReturn => exact k.unpark.bind fun _ => k.push _
    | dropReturn =>
      exact k.unpark.bind fun _ => (k.push _).bind fun _ =>
        k.pop.bind fun _ => Keeps.pure _
    | _ => exact absurd rfl quiet

/-- **Every built-in word keeps what its parts keep.** -/
theorem act (k : Keeper P) {call : Handle → Run E Unit} {b : Builtin}
    (exit : b = .thread .exit → Keeps P (Act.exitThread : Act E Unit))
    (bye : b = .thread .bye → ∀ m, P m → P m.finish)
    (exec : b = .thread .exec → ∀ v, Keeps P (call v)) :
    Keeps P (b.act call) := by
  by_cases quiet : b.isQuiet = true
  · exact fun m => k.touches (b.touches_act call quiet m)
  · cases b with
    | stack w => exact (k.stacking w).run
    | thread w =>
      exact k.threading (fun h => exit (congrArg _ h))
        (fun h => bye (congrArg _ h)) (fun h => exec (congrArg _ h))
    | _ => exact absurd rfl quiet

/-- A built-in word as far as it executes no other. -/
theorem alone (k : Keeper P) (exit : Keeps P (Act.exitThread : Act E Unit))
    (finish : ∀ m, P m → P m.finish) (b : Builtin) :
    Keeps P (b.act fun _ => starve) :=
  k.act (fun _ => exit) (fun _ => finish) fun _ _ _ h => h

theorem compile (k : Keeper P) (c : Cell) :
    Keeps P (Act.compile c : Act E Unit) :=
  fun m => k.touches (Act.touches_compile c m)

/-- Compiling a value behind the built-in `lit`. -/
theorem compileLiteral (k : Keeper P) (v : Value) :
    Keeps P (do
      let lit ← Act.builtin "lit"
      Act.compile (.word lit)
      Act.compile (.literal v) : Act E Unit) := by
  have looksUp : Keeps P (Act.builtin "lit" : Act E Handle) := by
    intro m h
    rw [Act.builtin_apply]
    split
    · exact h
    · exact h
  exact looksUp.bind fun _ => (k.compile _).bind fun _ => k.compile _

/-- A value that is interpreted or compiled. -/
theorem processValue (k : Keeper P) {p : Primitives E} {n : Nat}
    (executes : ∀ w, Keeps P (execute p n w)) (v : Value) :
    Keeps P (processValue p n v) := by
  intro m h
  unfold Machine.processValue
  split
  · split
    · exact executes _ m h
    · exact (k.compile _).run m h
  · split
    · exact (k.push _).run m h
    · exact (k.compileLiteral _).run m h

end Keeper

/-! ## What control has no part in -/

section Frames

variable {P : Machine E → Prop}
  (frames : ∀ {m : Machine E} (returns : Stack Frame)
    (cursor : Option Cursor), P m →
    P { m with returns := returns, cursor := cursor })

include frames

theorem Keeps.popFrame : Keeps P (Act.popFrame : Act E Frame) := by
  intro m h
  rw [Act.popFrame_apply]
  split
  · exact h
  · exact frames _ _ h

theorem Keeps.exitThread : Keeps P (Act.exitThread : Act E Unit) := by
  intro m h
  rw [Act.exitThread_apply]
  split
  · exact h
  · split
    · exact frames _ _ h
    · split
      · exact h
      · exact frames _ _ h
      · exact frames _ _ h

/-- A property in which the return stack and the cursor have no part. -/
theorem Keeper.of_frames
    (touch : ∀ {m t : Machine E}, Touch m t → P m → P t) : Keeper P where
  touch := touch
  park := fun _ _ h => frames _ _ h
  unpark := by
    refine (Keeps.popFrame frames).bind fun f => ?_
    cases f with
    | value v => exact Keeps.pure v
    | call c => exact Keeps.bind (fun _ h => frames _ _ h) fun _ =>
        Keeps.throw _
  fetch := fun m h => by
    rw [Act.fetchOperand_apply]
    split
    · exact h
    · split
      · exact h
      · exact frames _ _ h
  jump := fun offset m h => by
    rw [Act.jump_apply]
    split
    · exact h
    · split
      · exact h
      · exact frames _ _ h

end Frames

/-- A property that touches keep up and that control has no part in. -/
structure Steadfast (P : Machine .none → Prop) : Prop where
  touch : ∀ {m t : Machine .none}, Touch m t → P m → P t
  control : ∀ {m : Machine .none} (returns : Stack Frame)
    (cursor : Option Cursor) (base : Nat) (executing : Option Handle)
    (blame : Option CallTrace) (finished : Bool), P m →
    P { m with
      returns := returns
      cursor := cursor
      base := base
      executing := executing
      blame := blame
      finished := finished }

namespace Steadfast

variable {P : Machine .none → Prop}

theorem blames (k : Steadfast P) {m : Machine .none} (h : P m) :
    P m.captureBlame := by
  rw [captureBlame_eq]
  exact k.control _ _ _ _ _ _ h

theorem exitThread (k : Steadfast P) : Keeps P Act.exitThread :=
  Keeps.exitThread fun _ _ h => k.control _ _ _ _ _ _ h

theorem keeper (k : Steadfast P) : Keeper P :=
  .of_frames (fun _ _ h => k.control _ _ _ _ _ _ h) k.touch

/-- A native word, out of reach or not. -/
theorem act (k : Steadfast P) {barred : Builtin → Bool}
    {call : Handle → Run .none Unit} (calls : ∀ w, Keeps P (call w))
    (b : Builtin) :
    Keeps P ((Primitives.pure.without barred).builtin call b) := by
  show Keeps P (if barred b = true then starve else b.act call)
  split
  · exact fun _ h => h
  · exact k.keeper.act (fun _ => k.exitThread)
      (fun _ _ h => k.control _ _ _ _ _ _ h) fun _ => calls

/-- A native word with itself down as the one at work. -/
theorem invoke (k : Steadfast P) (w : Handle) {x : Run .none Unit}
    (inner : Keeps P x) : Keeps P (invoke w x) := by
  intro m h
  have done := inner { m with executing := some w }
    (k.control _ _ _ _ _ _ h)
  unfold Machine.invoke
  generalize x { m with executing := some w } = r at done
  cases r with
  | ok a after => exact k.control _ _ _ _ _ _ done
  | error e after =>
    cases e with
    | failed f => exact k.control _ _ _ _ _ _ (k.blames done)
    | starved => exact done

/-- A run of a thread. -/
theorem startRun (k : Steadfast P) (w : Handle) {x : Run .none Unit}
    (inner : Keeps P x) : Keeps P (startRun w x) := by
  intro m h
  have done := inner
    { m with base := m.returns.depth, cursor := some (.start w) }
    (k.control _ _ _ _ _ _ h)
  unfold Machine.startRun
  dsimp only
  generalize x { m with base := m.returns.depth, cursor := some (.start w) }
    = r at done
  cases r with
  | ok a after => exact k.control _ _ _ _ _ _ done
  | error e after =>
    cases e with
    | failed f => exact k.control _ _ _ _ _ _ (k.blames done)
    | starved => exact done

/-- A turn of the loop. -/
theorem step (k : Steadfast P) {call : Handle → Run .none Unit}
    (calls : ∀ w, Keeps P (call w)) (c : Cursor) : Keeps P (step call c) := by
  intro m h
  unfold Machine.step
  have look (f : Machine .none → Run .none Unit) :
      (get >>= f) m = f m m := rfl
  rw [look]
  split
  · exact k.exitThread.run m h
  · refine (k.keeper.fetch.run.bind fun cell => Keeps.bind ?_ fun _ => ?_) m h
    · intro m h
      show P (m.traceStep c cell)
      rw [traceStep_eq]
      exact k.touch (.aside m _ _ _ _ _ _ _) h
    · cases cell with
      | word w => exact calls w
      | literal v => exact (k.keeper.push v).run

/-- **Executing a word, and carrying on a thread**, both at once since they
call each other. -/
theorem execute_loop (k : Steadfast P) (barred : Builtin → Bool) (n : Nat) :
    (∀ w, Keeps P (execute (Primitives.pure.without barred) n w)) ∧
      Keeps P (loop (Primitives.pure.without barred) n) := by
  induction n with
  | zero => exact ⟨fun _ _ h => h, fun _ h => h⟩
  | succ n ih =>
    obtain ⟨executes, loops⟩ := ih
    refine ⟨fun w m h => ?_, fun m h => ?_⟩
    · have forgot : P m.forgetBlame := by
        rw [forgetBlame_eq]
        exact k.control _ _ _ _ _ _ h
      rw [execute]
      dsimp only
      split
      · exact k.invoke w (k.act executes _) _ forgot
      · next code _ => exact code.elim
      · split
        · exact k.control _ _ _ _ _ _ forgot
        · exact k.startRun w loops _ forgot
    · rw [loop]
      dsimp only
      split
      · exact h
      · next c _ =>
        have turned := k.step executes c m h
        generalize Machine.step
          (execute (Primitives.pure.without barred) n) c m = r at turned
        cases r with
        | ok a after => exact loops after turned
        | error e after => exact turned

/-- A token that is processed. -/
theorem processToken (k : Steadfast P) (barred : Builtin → Bool) (n : Nat)
    (t : Token) :
    Keeps P (processToken (Primitives.pure.without barred) n t) :=
  fun m => k.keeper.processValue (k.execute_loop barred n).1 _ m

end Steadfast

/-- What has been reported is changed by nothing that is executed. -/
theorem steadfast_reports (reports : List Report) :
    Steadfast fun m => m.reports = reports where
  touch := fun touch h => by
    cases touch <;> exact h
  control := fun _ _ _ _ _ _ h => h

/-! ## What execution puts back -/

/-- The machine `t` is as far from top level as `m` was. -/
structure Restored (m t : Machine E) : Prop where
  base : t.base = m.base
  executing : t.executing = m.executing
  idle : m.cursor = none → t.cursor = none

theorem Restored.refl (m : Machine E) : Restored m m := ⟨rfl, rfl, id⟩

theorem Restored.trans {m t u : Machine E} (h : Restored m t)
    (h' : Restored t u) : Restored m u :=
  ⟨h'.base.trans h.base, h'.executing.trans h.executing,
    fun idle => h'.idle (h.idle idle)⟩

theorem Touch.restored {m t : Machine E} (h : Touch m t) :
    Restored m t := by
  cases h <;> exact ⟨rfl, rfl, id⟩

/-- Reading the running thread. -/
theorem fetchOperand_restored (m : Machine E) :
    Restored m (leftBy (Act.fetchOperand m)) := by
  rw [Act.fetchOperand_apply]
  split
  · exact .refl m
  · next c running =>
    split
    · exact .refl m
    · exact ⟨rfl, rfl, fun idle => absurd (running.symm.trans idle) nofun⟩

/-- Jumping in it. -/
theorem jump_restored (offset : Int64) (m : Machine E) :
    Restored m (leftBy (Act.jump offset m)) := by
  rw [Act.jump_apply]
  split
  · exact .refl m
  · next c running =>
    split
    · exact .refl m
    · exact ⟨rfl, rfl, fun idle => absurd (running.symm.trans idle) nofun⟩

/-- Leaving it. -/
theorem exitThread_restored (m : Machine E) :
    Restored m (leftBy (Act.exitThread m)) := by
  rw [Act.exitThread_apply]
  split
  · exact .refl m
  · next c running =>
    have never {P : Prop} (idle : m.cursor = none) : P :=
      absurd (running.symm.trans idle) nofun
    split
    · exact ⟨rfl, rfl, never⟩
    · split
      · exact .refl m
      · exact ⟨rfl, rfl, never⟩
      · exact ⟨rfl, rfl, never⟩

/-- Taking back a parked value. -/
theorem takeParked_restored (m : Machine E) :
    Restored m (leftBy (StackWord.takeParked m)) := by
  rw [StackWord.takeParked, Act.bind_apply, Act.popFrame_apply]
  cases m.returns.pop? with
  | none => exact .refl m
  | some top =>
    obtain ⟨f, returns⟩ := top
    cases f with
    | call c => exact ⟨rfl, rfl, id⟩
    | value v => exact ⟨rfl, rfl, id⟩

theorem keeper_restored (m₀ : Machine E) : Keeper (Restored m₀) where
  touch := fun touch h => h.trans touch.restored
  park := fun _ _ h => h.trans ⟨rfl, rfl, id⟩
  unpark := fun m h => h.trans (takeParked_restored m)
  fetch := fun m h => h.trans (fetchOperand_restored m)
  jump := fun offset m h => h.trans (jump_restored offset m)

/-- A native word, if executing words puts back what it found. -/
theorem act_restored {call : Handle → Run E Unit}
    (calls : ∀ v m, Ends (call v m) → Restored m (leftBy (call v m)))
    (b : Builtin) (m : Machine E) (ends : Ends (b.act call m)) :
    Restored m (leftBy (b.act call m)) := by
  by_cases isExec : b = .thread .exec
  · subst isExec
    replace ends : Ends (ThreadWord.act call .exec m) := ends
    show Restored m (leftBy (ThreadWord.act call .exec m))
    rw [ThreadWord.exec_apply] at ends ⊢
    split at ends
    · exact .refl m
    · next w data _ =>
      have popped : Restored m { m with data := data } := ⟨rfl, rfl, id⟩
      exact popped.trans (calls w _ ends)
    · exact ⟨rfl, rfl, id⟩
  · exact (keeper_restored m).act
      (fun _ u h => h.trans (exitThread_restored u))
      (fun _ u h => h.trans ⟨rfl, rfl, fun _ => rfl⟩)
      (fun h => absurd h isExec) m (.refl m)

/-- Around a native word. -/
theorem invoke_restored {w : Handle} {x : Run E Unit} {m : Machine E}
    (inner : Ends (x { m with executing := some w }) →
      Restored { m with executing := some w }
        (leftBy (x { m with executing := some w })))
    (ends : Ends (invoke w x m)) : Restored m (leftBy (invoke w x m)) := by
  unfold invoke at ends ⊢
  generalize x { m with executing := some w } = r at inner ends
  cases r with
  | ok a after =>
    have h := inner (ends_ok _ _)
    exact ⟨h.base, rfl, h.idle⟩
  | error e after =>
    cases e with
    | failed f =>
      have h := inner (ends_failed _ _)
      dsimp only [leftBy]
      rw [captureBlame_eq]
      exact ⟨h.base, rfl, h.idle⟩
    | starved => exact absurd rfl (ends after)

/-- Around a run. -/
theorem startRun_restored {w : Handle} {x : Run E Unit} {m : Machine E}
    (inner : ∀ u, Ends (x u) → (leftBy (x u)).executing = u.executing)
    (ends : Ends (startRun w x m)) :
    Restored m (leftBy (startRun w x m)) := by
  have same := inner
    { m with base := m.returns.depth, cursor := some (.start w) }
  unfold startRun at ends ⊢
  dsimp only at ends ⊢
  generalize x { m with base := m.returns.depth, cursor := some (.start w) }
    = r at same ends
  cases r with
  | ok a after => exact ⟨rfl, same (ends_ok _ _), fun _ => rfl⟩
  | error e after =>
    cases e with
    | failed f =>
      have h := same (ends_failed _ _)
      dsimp only [leftBy]
      rw [captureBlame_eq]
      exact ⟨rfl, h, fun _ => rfl⟩
    | starved => exact absurd rfl (ends after)

/-- A turn. -/
theorem step_restored {call : Handle → Run E Unit} {c : Cursor}
    {m : Machine E}
    (calls : ∀ v m, Ends (call v m) → Restored m (leftBy (call v m)))
    (running : m.cursor = some c) (ends : Ends (step call c m)) :
    Restored m (leftBy (step call c m)) := by
  by_cases atEnd : (m.dictionary.cells c.word).size ≤ c.index
  · rw [step_of_end call atEnd, Act.run_apply]
    have left := exitThread_restored m
    generalize Act.exitThread m = r at left
    cases r with
    | ok a after => exact left
    | error f after => exact left
  · obtain ⟨cell, present⟩ := exists_cell atEnd
    have fetched : Restored m (m.fetched c cell) := by
      rw [fetched_eq]
      exact ⟨rfl, rfl, fun idle => absurd (running.symm.trans idle) nofun⟩
    rw [step_of_cell call running present] at ends ⊢
    cases cell with
    | word w => exact fetched.trans (calls w _ ends)
    | literal v => exact fetched.trans ⟨rfl, rfl, id⟩

/-- Executing a word and carrying on a thread, both at once since they call
each other. -/
theorem execute_loop_restored (n : Nat) :
    (∀ w (m : Machine .none), Ends (execute Primitives.pure n w m) →
      Restored m (leftBy (execute Primitives.pure n w m))) ∧
    ∀ m : Machine .none, Ends (loop Primitives.pure n m) →
      Restored m (leftBy (loop Primitives.pure n m)) := by
  induction n with
  | zero => exact ⟨fun _ m ends => absurd rfl (ends m),
      fun m ends => absurd rfl (ends m)⟩
  | succ n ih =>
    obtain ⟨executes, loops⟩ := ih
    refine ⟨fun w m ends => ?_, fun m ends => ?_⟩
    · have forgot : Restored m m.forgetBlame := by
        rw [forgetBlame_eq]
        exact ⟨rfl, rfl, id⟩
      refine forgot.trans ?_
      rw [execute] at ends ⊢
      dsimp only at ends ⊢
      split at ends
      · next b _ =>
        exact invoke_restored (act_restored executes b _) ends
      · next code _ => exact code.elim
      · split at ends
        · next c running =>
          refine ⟨rfl, rfl, fun idle => ?_⟩
          rw [running] at idle
          cases idle
        · exact startRun_restored (fun u h => (loops u h).executing) ends
    · cases hc : m.cursor with
      | none =>
        rw [loop_of_none _ _ hc]
        exact .refl m
      | some c =>
        rw [loop_of_some _ _ hc] at ends ⊢
        have turned := step_restored executes hc
        generalize step (execute Primitives.pure n) c m = r at turned ends
        cases r with
        | ok a after =>
          exact (turned (ends_ok _ _)).trans (loops after ends)
        | error e after => exact turned ends

/-- **Whoever executes a word finds what it left**: the same word at work,
the same base, and no thread running if there was none. -/
theorem execute_restored {n : Nat} {w : Handle} {m : Machine .none}
    (ends : Ends (execute Primitives.pure n w m)) :
    Restored m (leftBy (execute Primitives.pure n w m)) :=
  (execute_loop_restored n).1 w m ends

end Machine

end Forth
