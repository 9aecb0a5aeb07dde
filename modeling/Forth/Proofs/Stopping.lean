import Forth.Proofs.Redefinition

/-!
# Being told to stop

`bye` sets a flag, takes the running thread away and cuts the return stack
down to the base of the run.  Nothing else looks at the flag than the outer
interpreters, between two rounds; that the word which was being executed comes
to an end at once, however deep `bye` was reached, is because no thread is
running any more.  What is left to do is to put back the word at work and the
base of the run (`Still`).

So a run in which `bye` is executed is followed from both sides.

* Forwards: where `bye` comes to be executed while a word is, the execution
  of that word ends well, in the machine that `bye` left
  (`Comes.execute_bye`); the outer interpreter then ends with it
  (`Outer.Tells.run`).
* Backwards: a machine that has been told to stop, and that an execution or
  any other moment of a run leaves, is what some `bye` has left
  (`execute_heeds`, `Moment.tells`).

An outer interpreter does the same with every allowance that suffices, so the
two meet.

Main statement: `bye_stops_everything`.
-/

namespace Forth.Machine

open Relation

variable {E : Embedding}

/-! ## What `bye` leaves -/

/-- The machine `t` is `x`, with the base of the run and the word at work put
back. -/
def Still (x t : Machine E) : Prop :=
  ∃ base executing, t = { x with base := base, executing := executing }

namespace Still

variable {x y t : Machine E}

theorem refl (x : Machine E) : Still x x := ⟨_, _, rfl⟩

theorem symm (h : Still x t) : Still t x := by
  obtain ⟨_, _, rfl⟩ := h
  exact ⟨_, _, rfl⟩

theorem trans (h : Still x y) (h' : Still y t) : Still x t := by
  obtain ⟨_, _, rfl⟩ := h
  obtain ⟨_, _, rfl⟩ := h'
  exact ⟨_, _, rfl⟩

theorem cursor (h : Still x t) : t.cursor = x.cursor := by
  obtain ⟨_, _, rfl⟩ := h
  rfl

theorem finished (h : Still x t) : t.finished = x.finished := by
  obtain ⟨_, _, rfl⟩ := h
  rfl

end Still

variable {m t x y : Machine .none} {w v : Handle} {n : Nat}

/-- While a word is executed, `bye` is executed, and leaves a machine. -/
def Told (m : Machine .none) (w : Handle) (x : Machine .none) : Prop :=
  ∃ y v, Comes m w y v ∧ y.dictionary.body v = .builtin (.thread .bye) ∧
    x = (y.working v).finish

theorem Told.of_comes {u : Machine .none} (h : Comes m w u v)
    (told : Told u v x) : Told m w x := by
  obtain ⟨y, z, comes, rest⟩ := told
  exact ⟨y, z, h.trans comes, rest⟩

theorem Told.cursor (h : Told m w x) : x.cursor = none := by
  obtain ⟨_, _, _, _, rfl⟩ := h
  rfl

theorem Told.finished (h : Told m w x) : x.finished = true := by
  obtain ⟨_, _, _, _, rfl⟩ := h
  rfl

/-! ## Forwards -/

/-- **However deep `bye` is reached**, the word that is being executed ends
well, and leaves what `bye` has left.  By induction on how it is reached. -/
theorem Comes.execute_bye (comes : Comes m w y v)
    (body : y.dictionary.body v = .builtin (.thread .bye)) :
    ∃ n t, execute Primitives.pure n w m = .ok () t ∧
      Still (y.working v).finish t := by
  induction comes with
  | self m w =>
    refine ⟨1, { (m.working w).finish with
      executing := m.forgetBlame.executing }, ?_, ⟨_, _, rfl⟩⟩
    rw [execute_builtin _ 0 body]
    exact invoke_of_ok rfl
  | @exec m u y w v z isExec popped _ ih =>
    obtain ⟨n, t, done, still⟩ := ih body
    refine ⟨n + 1, { t with executing := m.forgetBlame.executing }, ?_,
      still.trans ⟨_, _, rfl⟩⟩
    rw [execute_builtin _ n isExec]
    refine invoke_of_ok ?_
    show (Act.popWord.run >>= execute Primitives.pure n) (m.working w) = _
    rw [Act.bind_apply, Act.run_apply, popped]
    exact done
  | @cell m x y w v z cells c isThread idle reach running present _ ih =>
    obtain ⟨n, t, done, still⟩ := ih body
    have turn : Turn Primitives.pure x t :=
      ⟨n, c, running, (step_of_cell _ running present).trans done⟩
    -- No thread is running any more, so that was the last turn of the run.
    have quiet := loop_of_none Primitives.pure 0 still.cursor
    obtain ⟨k, ran⟩ := exists_loop_of_reaches Primitives.pure_cut
      (reach.tail turn) (n := 1) (quiet ▸ ends_ok () t)
    refine ⟨k + 1, { t with cursor := none, base := m.forgetBlame.base }, ?_,
      ?_⟩
    · rw [execute_thread_idle _ k isThread idle]
      exact startRun_of_ok (m := m.forgetBlame) (ran.trans quiet)
    · obtain ⟨_, _, rfl⟩ := still
      exact ⟨_, _, rfl⟩

theorem Told.execute (told : Told m w x) :
    ∃ n t, execute Primitives.pure n w m = .ok () t ∧ Still x t := by
  obtain ⟨y, v, comes, body, rfl⟩ := told
  exact comes.execute_bye body

/-! ## Backwards -/

/-- A machine that an execution leaves, and that has been told to stop, is
what some `bye` has left. -/
def Heeds (call : Handle → Run .none Unit) : Prop :=
  ∀ w m t, call w m = .ok () t → m.finished = false → t.finished = true →
    ∃ x, Told m w x ∧ Still x t

/-- In a run of a thread, `bye` is executed in a turn, and leaves `x`. -/
def ToldInRun (m x : Machine .none) : Prop :=
  ∃ y c v, Reaches Primitives.pure m y ∧ y.cursor = some c ∧
    (y.dictionary.cells c.word)[c.index]? = some (.word v) ∧
    Told (y.fetched c (.word v)) v x

theorem ToldInRun.head (turn : Turn Primitives.pure m y)
    (h : ToldInRun y x) : ToldInRun m x := by
  obtain ⟨z, c, v, reach, rest⟩ := h
  exact ⟨z, c, v, .head turn reach, rest⟩

theorem ToldInRun.cursor (h : ToldInRun m x) : x.cursor = none := by
  obtain ⟨_, _, _, _, _, _, told⟩ := h
  exact told.cursor

theorem ToldInRun.told {cells : Array Cell}
    (body : m.dictionary.body w = .thread cells) (idle : m.cursor = none)
    (h : ToldInRun (m.entering w) x) : Told m w x := by
  obtain ⟨y, c, v, reach, running, present, told⟩ := h
  exact told.of_comes (.cell body idle reach running present (.self _ v))

section Heeding

variable {call : Handle → Run .none Unit}

/-- One turn. -/
theorem Heeds.step (heeds : Heeds call) {c : Cursor}
    (running : m.cursor = some c) (done : Machine.step call c m = .ok () t)
    (going : m.finished = false) (told : t.finished = true) :
    ∃ x, ToldInRun m x ∧ Still x t := by
  rcases step_ok running done with ⟨_, exited⟩ | ⟨cell, present, rest⟩
  · have kept := Keeps.exitThread
      (P := fun m : Machine .none => m.finished = false)
      (fun _ _ h => h) m going
    rw [exited] at kept
    exact absurd told (Bool.eq_false_iff.1 kept)
  · have fetched : (m.fetched c cell).finished = false := by
      rw [fetched_eq]
      exact going
    cases cell with
    | word v =>
      obtain ⟨x, h, still⟩ := heeds _ _ _ rest fetched told
      exact ⟨x, ⟨m, c, v, .refl, running, present, h⟩, still⟩
    | literal v =>
      rw [rest] at told
      exact absurd told (Bool.eq_false_iff.1 fetched)

/-- One native word. -/
theorem Heeds.act (heeds : Heeds call) {b : Builtin}
    (body : m.dictionary.body w = .builtin b)
    (acted : b.act call (m.working w) = .ok () t)
    (going : m.finished = false) (told : t.finished = true) :
    ∃ x, Told m w x ∧ Still x t := by
  have going' : (m.working w).finished = false :=
    m.forgetBlame_finished.trans going
  by_cases isBye : b = .thread .bye
  · subst isBye
    cases acted
    exact ⟨_, ⟨m, w, .self m w, body, rfl⟩, .refl _⟩
  by_cases isExec : b = .thread .exec
  · subst isExec
    replace acted : (Act.popWord.run >>= call) (m.working w) = .ok () t :=
      acted
    rw [Act.bind_apply, Act.run_apply] at acted
    cases popped : Act.popWord (m.working w) with
    | ok v u =>
      rw [popped] at acted
      obtain ⟨data, rfl⟩ := eq_of_popWord popped
      obtain ⟨x, h, still⟩ := heeds _ _ _ acted going' told
      exact ⟨x, h.of_comes (.exec body popped (.self _ v)), still⟩
    | error f u =>
      rw [popped] at acted
      cases acted
  · have kept : Keeps (fun m : Machine .none => m.finished = false)
        (b.act fun _ => starve) :=
      keeper_going.act (fun _ => Keeps.exitThread fun _ _ h => h)
        (fun h => absurd h isBye) fun _ _ _ h => h
    replace kept := kept (m.working w) going'
    rw [act_congr isExec _ call, acted] at kept
    exact absurd told (Bool.eq_false_iff.1 kept)

end Heeding

/-- A loop that comes to its end. -/
theorem loop_told (heeds : ∀ k < n, Heeds (execute Primitives.pure k))
    (ran : loop Primitives.pure n m = .ok () t)
    (going : m.finished = false) (told : t.finished = true) :
    ∃ x, ToldInRun m x ∧ Still x t := by
  induction n generalizing m with
  | zero => cases ran
  | succ n ih =>
    cases running : m.cursor with
    | none =>
      rw [loop_of_none _ _ running] at ran
      cases ran
      exact absurd told (Bool.eq_false_iff.1 going)
    | some c =>
      rw [loop_of_some _ _ running] at ran
      cases turned : Machine.step (execute Primitives.pure n) c m with
      | error e u =>
        rw [turned] at ran
        cases ran
      | ok a u =>
        rw [turned] at ran
        replace ran : loop Primitives.pure n u = .ok () t := ran
        have turn : Turn Primitives.pure m u := ⟨n, c, running, turned⟩
        cases going' : u.finished with
        | false =>
          obtain ⟨x, h, still⟩ := ih (fun k less => heeds k (by omega)) ran
            going'
          exact ⟨x, h.head turn, still⟩
        | true =>
          obtain ⟨x, h, still⟩ := (heeds n (by omega)).step running turned
            going going'
          have halted := still.cursor.trans h.cursor
          cases n with
          | zero => cases ran
          | succ n =>
            rw [loop_of_none _ _ halted] at ran
            cases ran
            exact ⟨x, h, still⟩

/-- **Whoever leaves a machine that has been told to stop has executed
`bye`.** -/
theorem execute_heeds (n : Nat) : Heeds (execute Primitives.pure n) := by
  induction n using Nat.strongRecOn with
  | ind n ih =>
    intro w m t done going told
    cases n with
    | zero => cases done
    | succ n =>
      have forgot : m.forgetBlame.finished = false :=
        m.forgetBlame_finished.trans going
      cases body : m.dictionary.body w with
      | host code => exact code.elim
      | builtin b =>
        rw [execute_builtin _ n body] at done
        obtain ⟨u, acted, rfl⟩ := invoke_ok done
        obtain ⟨x, h, still⟩ := (ih n (by omega)).act body acted going told
        exact ⟨x, h, still.trans ⟨_, _, rfl⟩⟩
      | thread cells =>
        cases running : m.cursor with
        | some c =>
          rw [execute_thread n running body] at done
          cases done
          exact absurd told (Bool.eq_false_iff.1 going)
        | none =>
          rw [execute_thread_idle _ n body running] at done
          unfold startRun at done
          dsimp only at done
          split at done
          · next u ran =>
            cases done
            obtain ⟨x, h, still⟩ := loop_told (m := m.entering w)
              (fun k less => ih k (by omega)) ran forgot told
            have halted := still.cursor.trans h.cursor
            refine ⟨x, h.told body running, still.trans ?_⟩
            exact ⟨_, _, by rw [← halted]⟩
          · cases done
          · cases done

/-- So has a run that has come to such a machine. -/
theorem reaches_told (reach : Reaches Primitives.pure m t)
    (going : m.finished = false) (told : t.finished = true) :
    ∃ x, ToldInRun m x ∧ Still x t := by
  rcases ReflTransGen.cases_tail reach with same | ⟨y, before, k, c, running,
    done⟩
  · rw [same] at told
    exact absurd told (Bool.eq_false_iff.1 going)
  · have going' := Reaches.going before going (by simp [running])
    obtain ⟨x, ⟨z, d, v, reach', rest⟩, still⟩ :=
      (execute_heeds k).step running done going' told
    exact ⟨x, ⟨z, d, v, before.trans reach', rest⟩, still⟩

theorem Visits.told (visits : Visits m w y) (going : m.finished = false)
    (told : y.finished = true) : ∃ x, Told m w x ∧ Still x y := by
  obtain ⟨u, v, cells, comes, body, idle, reach⟩ := visits
  have entered : (u.entering v).finished = false :=
    u.forgetBlame_finished.trans (comes.going going)
  obtain ⟨x, h, still⟩ := reaches_told reach entered told
  exact ⟨x, (h.told body idle).of_comes comes, still⟩

/-! ## The outer interpreters -/

/-- In a run of an outer interpreter `bye` is executed, and leaves a
machine. -/
def Outer.Tells (outer : Outer) (policy : OnError) (m x : Machine .none) :
    Prop :=
  ∃ y u w, ReflTransGen (outer.Round policy) m y ∧ outer.Executes y u w ∧
    Told u w x

section Rounds

variable {outer : Outer} {policy : OnError}

/-- A word is executed by a machine that goes on. -/
theorem Outer.Executes.going {u : Machine .none}
    (executes : outer.Executes m u w) :
    m.finished = false ∧ u.finished = false := by
  cases executes with
  | token going read _ _ =>
    have kept := keeper_going.touches (touches_nextToken m) going
    rw [read] at kept
    exact ⟨going, kept⟩
  | init going _ => exact ⟨going, going⟩

/-- A round is made by a machine that goes on. -/
theorem Outer.Round.going (round : outer.Round policy m t) :
    m.finished = false := by
  cases round with
  | token _ consumes =>
    obtain ⟨_, _, _, going, _⟩ := consumes
    exact going
  | resumed breaks _ =>
    cases breaks with
    | executing executes _ => exact executes.going.1
    | compiling going _ _ _ => exact going

/-- Interpreting goes on after a failure as it would from there. -/
theorem exists_interpret_of_failed {u z : Machine .none} {token : Token}
    {f : Fault} {j : Nat} (going : m.finished = false)
    (read : m.nextToken = (some token, u))
    (failed : processToken Primitives.pure j token u = .error (.failed f) z)
    (handled : handleError policy f z = .ok () t)
    (ends : Ends (interpret Primitives.pure policy n t)) :
    ∃ k, interpret Primitives.pure policy k m =
      interpret Primitives.pure policy n t := by
  refine ⟨max j n + 1, ?_⟩
  have processed := (processToken_cut Primitives.pure_cut token
    (Nat.le_max_left j n)).eq_of_ends (failed ▸ ends_failed f z)
  have rest := (interpret_cut Primitives.pure_cut policy n _
    (Nat.le_max_right j n)).eq_of_ends ends
  rw [interpret]
  simp only [going, Bool.false_eq_true, if_false, read, processed, failed,
    handled]
  exact rest

/-- Booting goes on after a failure as it would from there. -/
theorem exists_boot_of_failed {z : Machine .none} {init : Handle} {f : Fault}
    {j : Nat} (going : m.finished = false)
    (found : m.builtins.find? "init" = some init)
    (failed : execute Primitives.pure j init m = .error (.failed f) z)
    (handled : handleError policy f z = .ok () t)
    (ends : Ends (boot Primitives.pure policy n t)) :
    ∃ k, boot Primitives.pure policy k m = boot Primitives.pure policy n t := by
  have grows := execute_grows j init m
  have resumes := handleError_grows policy f z
  rw [failed] at grows
  rw [handled] at resumes
  have same : t.builtins = m.builtins := Grows.builtins (grows.trans resumes)
  rw [boot_apply, same, found] at ends ⊢
  refine ⟨max j n + 1, ?_⟩
  have executed := (execute_cut Primitives.pure_cut init
    (Nat.le_max_left j n)).eq_of_ends (failed ▸ ends_failed f z)
  have rest := (bootFrom_cut Primitives.pure_cut policy init n _
    (Nat.le_max_right j n)).eq_of_ends ends
  rw [boot_apply, found]
  dsimp only
  rw [bootFrom]
  simp only [going, Bool.false_eq_true, if_false, executed, failed, handled]
  exact rest

/-- After a round a run goes on as it would from there. -/
theorem Outer.Round.exists_run (round : outer.Round policy m t)
    (ends : Ends (outer.run Primitives.pure policy n t)) :
    ∃ k, outer.run Primitives.pure policy k m =
      outer.run Primitives.pure policy n t := by
  cases round with
  | token rule consumes =>
    subst rule
    exact exists_interpret_of_consumes Primitives.pure_cut policy
      (.single consumes) ends
  | resumed breaks handled =>
    cases breaks with
    | executing executes failed =>
      cases executes with
      | token going read meant runs =>
        exact exists_interpret_of_failed going read
          ((processToken_of_word meant runs _).trans failed) handled ends
      | init going found =>
        exact exists_boot_of_failed going found failed handled ends
    | compiling going read _ failed =>
      exact exists_interpret_of_failed going read failed handled ends

/-- A run ends with the word in which it has been told to stop. -/
theorem Outer.Executes.exists_run {u : Machine .none}
    (executes : outer.Executes m u w)
    (done : execute Primitives.pure n w u = .ok () t)
    (told : t.finished = true) :
    ∃ k, outer.run Primitives.pure policy k m = .ok () t := by
  cases executes with
  | token going read meant runs =>
    refine ⟨n + 2, ?_⟩
    have processed := (processToken_of_word meant runs (n + 1)).trans
      ((execute_cut Primitives.pure_cut w (Nat.le_succ n)).eq_ok done)
    show interpret Primitives.pure policy (n + 2) m = _
    rw [interpret]
    simp only [going, Bool.false_eq_true, if_false, read, processed]
    rw [interpret]
    simp only [told, if_true]
  | init going found =>
    refine ⟨n + 1, ?_⟩
    show boot Primitives.pure policy (n + 1) m = _
    rw [boot_apply, found]
    dsimp only
    rw [bootFrom]
    simp only [going, Bool.false_eq_true, if_false, done]

/-- **A run in which `bye` is executed ends well**, with what `bye` has
left. -/
theorem Outer.Tells.run (tells : outer.Tells policy m x) :
    ∃ n t, outer.run Primitives.pure policy n m = .ok () t ∧ Still x t := by
  obtain ⟨y, u, w, rounds, executes, told⟩ := tells
  obtain ⟨n, t, done, still⟩ := told.execute
  obtain ⟨k, ran⟩ : ∃ k, outer.run Primitives.pure policy k y = .ok () t :=
    executes.exists_run done (still.finished.trans told.finished)
  suffices ∃ k, outer.run Primitives.pure policy k m = .ok () t by
    obtain ⟨k, ran⟩ := this
    exact ⟨k, t, ran, still⟩
  induction rounds using ReflTransGen.head_induction_on with
  | refl => exact ⟨k, ran⟩
  | head round _ ih =>
    obtain ⟨j, earlier⟩ := ih
    obtain ⟨i, same⟩ := round.exists_run (earlier ▸ ends_ok () t)
    exact ⟨i, same.trans earlier⟩

theorem Outer.Tells.still (tells : outer.Tells policy m x) :
    x.cursor = none ∧ x.finished = true := by
  obtain ⟨_, _, _, _, _, told⟩ := tells
  exact ⟨told.cursor, told.finished⟩

/-- A run is told to stop once: any two of its machines that some `bye` has
left are the same. -/
theorem Outer.Tells.unique (tells : outer.Tells policy m x)
    (tells' : outer.Tells policy m y) : Still x y := by
  obtain ⟨n, t, ran, still⟩ := tells.run
  obtain ⟨k, t', ran', still'⟩ := tells'.run
  have cut {j i : Nat} (le : j ≤ i) :
      Cut (outer.run Primitives.pure policy j : Script .none Unit)
        (outer.run Primitives.pure policy i) := by
    cases outer with
    | rule => exact interpret_cut Primitives.pure_cut policy j i le
    | thread => exact boot_cut Primitives.pure_cut policy le
  have left := (cut (Nat.le_max_left n k)).eq_ok ran
  have right := (cut (Nat.le_max_right n k)).eq_ok ran'
  cases left.symm.trans right
  exact still.trans still'.symm

/-- Recovery does not look at whether the machine has been told to stop. -/
theorem recover_finished (m : Machine E) (f : Fault) :
    (m.recover f).2.finished = m.finished := by
  unfold recover
  dsimp only
  rw [record_eq]
  rfl

/-- A round that leaves a machine told to stop. -/
theorem Outer.Round.told (round : outer.Round policy m t)
    (told : t.finished = true) : ∃ x, outer.Tells policy m x ∧ Still x t := by
  cases round with
  | token rule consumes =>
    obtain ⟨n, token, u, going, read, done⟩ := consumes
    subst rule
    rcases executes_or_inert u (u.dictionary.translate token.text) with
      ⟨w, meant, runs⟩ | inert
    · rw [processToken_of_word meant runs] at done
      have executes : Outer.rule.Executes m u w :=
        .token going read meant runs
      obtain ⟨x, h, still⟩ := execute_heeds n w u t done executes.going.2 told
      exact ⟨x, ⟨m, u, w, .refl, executes, h⟩, still⟩
    · have reads := keeper_going.touches (touches_nextToken m) going
      rw [read] at reads
      have kept := keeper_going.inert inert n reads
      have same : Machine.processValue Primitives.pure n
        (u.dictionary.translate token.text) u = .ok () t := done
      rw [same] at kept
      exact absurd told (Bool.eq_false_iff.1 kept)
  | @resumed _ _ f breaks handled =>
    cases policy with
    | stop => cases handled
    | resume =>
      cases handled
      have kept := (recover_finished _ f).trans breaks.going
      exact absurd told (Bool.eq_false_iff.1 kept)

theorem Outer.Tells.of_rounds (rounds : ReflTransGen (outer.Round policy) m y)
    (tells : outer.Tells policy y x) : outer.Tells policy m x := by
  obtain ⟨z, u, w, rounds', rest⟩ := tells
  exact ⟨z, u, w, rounds.trans rounds', rest⟩

/-- **A moment at which the machine has been told to stop** shows what `bye`
has left. -/
theorem Moment.tells {z : Machine .none} (moment : Moment outer policy m z)
    (going : m.finished = false) (told : z.finished = true) :
    ∃ x, outer.Tells policy m x ∧ Still x z := by
  have absurdly {p : Prop} (kept : z.finished = false) : p :=
    absurd told (Bool.eq_false_iff.1 kept)
  cases moment with
  | top rounds =>
    rcases ReflTransGen.cases_tail rounds with same | ⟨y, before, round⟩
    · exact absurdly (same ▸ going)
    · obtain ⟨x, tells, still⟩ := round.told told
      exact ⟨x, tells.of_rounds before, still⟩
  | @read y rounds rule going' =>
    exact absurdly (keeper_going.touches (touches_nextToken y) going')
  | during rounds executes occurs =>
    have going' := executes.going.2
    cases occurs with
    | before comes => exact absurdly (comes.going going')
    | work comes body =>
      exact absurdly ((forgetBlame_finished _).trans (comes.going going'))
    | turn visits =>
      obtain ⟨x, h, still⟩ := visits.told going' told
      exact ⟨x, ⟨_, _, _, rounds, executes, h⟩, still⟩
    | fault faults => exact absurdly (faults.going going')
  | after rounds executes done =>
    obtain ⟨x, h, still⟩ := execute_heeds _ _ _ _ done executes.going.2 told
    exact ⟨x, ⟨_, _, _, rounds, executes, h⟩, still⟩
  | broken rounds breaks => exact absurdly breaks.going
  | recovered rounds breaks =>
    exact absurdly ((recover_finished _ _).trans breaks.going)

end Rounds

/-! ## Ways to drive a machine -/

/-- The ways to have a machine run a source: it interprets its input, with
either policy, or boots from it, or processes another text. -/
inductive Drive where
  | interpret (policy : OnError)
  | boot (policy : OnError)
  | source (path text : String)

namespace Drive

/-- What is done. -/
def run : Drive → Nat → Script .none Unit
  | interpret policy, n => Machine.interpret Primitives.pure policy n
  | boot policy, n => Machine.boot Primitives.pure policy n
  | source path text, n => processSource Primitives.pure n path text

/-- The outer interpreter that is at work. -/
def outer : Drive → Outer
  | interpret _ | source _ _ => .rule
  | boot _ => .thread

/-- What it does about a failure. -/
def policy : Drive → OnError
  | interpret policy | boot policy => policy
  | source _ _ => .stop

/-- The machine that it starts from. -/
def opened : Drive → Machine .none → Machine .none
  | source path text, m => { m with input := .ofText path text }
  | _, m => m

/-- What becomes of the machine that it leaves: a text that was processed is
put away. -/
def closed : Drive → Machine .none → Machine .none → Machine .none
  | source _ _, m, t => { t with input := m.input }
  | _, _, t => t

/-- A machine is driven by an outer interpreter. -/
theorem run_of_outer (drive : Drive)
    (done : drive.outer.run Primitives.pure drive.policy n (drive.opened m) =
      .ok () t) : drive.run n m = .ok () (drive.closed m t) := by
  cases drive with
  | interpret policy | boot policy => exact done
  | source path text =>
    have same : Machine.interpret Primitives.pure .stop n
      { m with input := .ofText path text } = .ok () t := done
    show processSource Primitives.pure n path text m = _
    unfold processSource reading
    rw [same]
    rfl

/-- So it is the same with every allowance that suffices. -/
theorem run_lasts (drive : Drive) (done : drive.run n m = .ok () t) {k : Nat}
    (large : n ≤ k) : drive.run k m = .ok () t := by
  refine Cut.eq_ok ?_ done
  cases drive with
  | interpret policy =>
    exact interpret_cut Primitives.pure_cut policy n k large
  | boot policy => exact boot_cut Primitives.pure_cut policy large
  | source path text =>
    exact processSource_cut Primitives.pure_cut large path text

/-- A machine that has been told to stop can not be driven. -/
theorem run_of_finished (drive : Drive) {init : Handle}
    (found : m.builtins.find? "init" = some init)
    (told : m.finished = true) (n : Nat) :
    drive.run (n + 1) m = .ok () m := by
  have interprets (policy : OnError) {m : Machine .none}
      (told : m.finished = true) :
      Machine.interpret Primitives.pure policy (n + 1) m = .ok () m := by
    rw [Machine.interpret]
    simp only [told, if_true]
  cases drive with
  | interpret policy => exact interprets policy told
  | boot policy =>
    show Machine.boot Primitives.pure policy (n + 1) m = _
    rw [boot_apply, found]
    dsimp only
    rw [bootFrom]
    simp only [told, if_true]
  | source path text =>
    show processSource Primitives.pure (n + 1) path text m = _
    unfold processSource reading
    rw [interprets .stop (m := { m with input := .ofText path text }) told]

/-- In a run, `bye` is executed, and leaves a machine. -/
def Tells (drive : Drive) (m x : Machine .none) : Prop :=
  drive.outer.Tells drive.policy (drive.opened m) x

/-- Nothing leads on from a machine: it takes no turn of a thread, and the
outer interpreter neither executes a word nor makes a round. -/
structure Rests (drive : Drive) (z : Machine .none) : Prop where
  turn : ∀ z', ¬ Turn Primitives.pure z z'
  executes : ∀ u w, ¬ drive.outer.Executes z u w
  round : ∀ z', ¬ drive.outer.Round drive.policy z z'

theorem rests_of_finished (drive : Drive) (idle : m.cursor = none)
    (told : m.finished = true) : drive.Rests m where
  turn := by
    rintro z' ⟨n, c, running, _⟩
    rw [idle] at running
    cases running
  executes _ _ executes := absurd told (Bool.eq_false_iff.1 executes.going.1)
  round _ round := absurd told (Bool.eq_false_iff.1 round.going)

end Drive

/-- **`bye` stops everything, from anywhere.**  Let a machine with only
built-in native words be driven in any of the three ways, and let `bye` be
executed on the way, wherever that is: by itself or in a thread, through
`exec`, in the thread of the outer interpreter, in either mode.  Let `x` be
the machine that it leaves.

The driving call ends well, with no thread running, and leaves `x` but for
what is put back; and whatever input the machine is given then, each further
call ends well and leaves it as it is.  At every moment of the run at which
the machine has been told to stop, it is `x` but for what is put back, and
nothing leads on from there.  No word that comes to be executed in the run is
executed by such a machine. -/
theorem bye_stops_everything (born : Born m) (drive : Drive)
    (tells : drive.Tells m x) :
    (∃ t, Still x t ∧ t.cursor = none ∧
      (∃ n, ∀ k, n ≤ k → drive.run k m = .ok () (drive.closed m t)) ∧
      ∀ (again : Drive) (input : Source) (n : Nat),
        again.run (n + 1) { drive.closed m t with input := input } =
          .ok () { drive.closed m t with input := input }) ∧
    (∀ z, Moment drive.outer drive.policy (drive.opened m) z →
      z.finished = true → Still x z ∧ drive.Rests z) ∧
    ∀ y u w z v, ReflTransGen (drive.outer.Round drive.policy)
        (drive.opened m) y →
      drive.outer.Executes y u w → Comes u w z v → z.finished = false := by
  obtain ⟨halted, told⟩ := tells.still
  have going : (drive.opened m).finished = false := by
    obtain ⟨y, u, w, rounds, executes, _⟩ := tells
    rcases ReflTransGen.cases_head rounds with same | ⟨_, round, _⟩
    · exact same ▸ executes.going.1
    · exact round.going
  refine ⟨?_, fun z moment told' => ?_, fun y u w z v _ executes comes =>
    comes.going executes.going.2⟩
  · obtain ⟨n, t, ran, still⟩ := tells.run
    have opens : Grows m (drive.opened m) := by
      cases drive with
      | source path text => exact .single (.touch (.aside _ _ _ _ _ _ _ _))
      | _ => exact .refl
    have grows := drive.outer.run_grows drive.policy n (drive.opened m)
    rw [ran] at grows
    have same : t.builtins = m.builtins := Grows.builtins (opens.trans grows)
    have closed : (drive.closed m t).builtins = m.builtins ∧
        (drive.closed m t).finished = true := by
      have told' := still.finished.trans told
      cases drive <;> exact ⟨same, told'⟩
    refine ⟨t, still, still.cursor.trans halted, ⟨n, fun k large =>
      drive.run_lasts (drive.run_of_outer ran) large⟩, fun again input n => ?_⟩
    have found : (drive.closed m t).builtins.find? "init" =
        some initHandle := closed.1 ▸ born.stocked.finds_init
    exact again.run_of_finished (m := { drive.closed m t with input := input })
      found closed.2 n
  · obtain ⟨y, tells', still⟩ := moment.tells going told'
    have same := (tells.unique tells').trans still
    exact ⟨same, drive.rests_of_finished (same.cursor.trans halted) told'⟩

/-- A text in which `bye` is reached while a word is being compiled, through
an immediate word that executes another one by `exec`. -/
def cutShort : String :=
  ": stop 7 bye 8 ; : now ' stop exec 9 ; immediate : late 1 now 2 ; 5"

/-- What a new machine leaves that is driven through it. -/
def leftCutShort : Machine .none :=
  leftBy (interpret Primitives.pure .stop 200
    { origin with input := .ofText "" cutShort })

/-- It stops within the compilation of `late`, with a single value, and all
later calls leave it alone. -/
theorem bye_while_compiling :
    ∃ x t, (Drive.source "" cutShort).Tells origin x ∧
      x.interpreting = false ∧ x.data.depth = 1 ∧ Still x t ∧
      (∃ n, ∀ k, n ≤ k → (Drive.source "" cutShort).run k origin =
        .ok () ((Drive.source "" cutShort).closed origin t)) ∧
      ∀ z, Moment .rule .stop { origin with input := .ofText "" cutShort } z →
        z.finished = true → Still x z := by
  have facts : leftCutShort.finished = true ∧
      leftCutShort.interpreting = false ∧ leftCutShort.data.depth = 1 ∧
      origin.finished = false := by
    decide +kernel
  obtain ⟨told, mode, depth, going⟩ := facts
  have moment : Moment .rule .stop { origin with input := .ofText "" cutShort }
      leftCutShort :=
    moment_of_run .rule .stop 200 _
  obtain ⟨x, tells, still⟩ := moment.tells going told
  have same : x.interpreting = leftCutShort.interpreting ∧
      x.data = leftCutShort.data := by
    obtain ⟨_, _, left⟩ := still
    rw [left]
    exact ⟨rfl, rfl⟩
  obtain ⟨⟨t, left, _, runs, _⟩, moments, _⟩ := bye_stops_everything
    ⟨.unlimited, none, .refl⟩ (.source "" cutShort) tells
  exact ⟨x, t, tells, same.1.trans mode,
    (congrArg Stack.depth same.2).trans depth, left, runs,
    fun z moment told => (moments z moment told).1⟩

end Forth.Machine
