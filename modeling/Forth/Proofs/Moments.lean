import Forth.Proofs.Keeping

/-!
# The moments of a run

An allowance says how far a run may go, and not what happens on the way.
Here the way is described without allowances.  While a word is executed,
other words come to be executed (`Comes`): the one that `exec` finds on the
data stack, and those in the cells of a thread that is run from top level.
In such a run the loop comes to one machine after the other (`Visits`).  The
machines that **occur** are these: those from which a word is executed, those
in which a native word is at work, those that the loop comes to, and the one
that a failing step leaves.

A failure has one origin: a native word that fails by itself, or a thread at
its end that can not return (`Faults`).  Everything between the origin and
whoever executed the word only puts back what it had saved.

Main statement: `execute_halts`.  An execution that fails leaves the machine
that its origin left, with the control state put back, and one that starves
leaves a machine that occurs in it.  On top of that, `Moment` describes the
two outer interpreters in the same way, and `moment_of_run` says that whatever
they leave behind is a moment of theirs.  An attempt of theirs that fails has
not been told to stop (`Outer.Breaks.going`).
-/

namespace Forth

namespace Machine

open Relation

variable {E : Embedding}

/-! ## Words that come to be executed -/

/-- The machine in which a native word does what it does. -/
def working (m : Machine E) (w : Handle) : Machine E :=
  { m.forgetBlame with executing := some w }

/-- The machine in which a run of a thread begins. -/
def entering (m : Machine E) (w : Handle) : Machine E :=
  { m.forgetBlame with
    base := m.forgetBlame.returns.depth
    cursor := some (.start w) }

/-- While a word is executed from a machine, another word comes to be
executed from another. -/
inductive Comes : Machine .none → Handle → Machine .none → Handle → Prop
  | self (m : Machine .none) (w : Handle) : Comes m w m w
  | exec {m u y : Machine .none} {w v z : Handle}
      (body : m.dictionary.body w = .builtin (.thread .exec))
      (popped : Act.popWord (m.working w) = .ok v u)
      (rest : Comes u v y z) : Comes m w y z
  | cell {m x y : Machine .none} {w v z : Handle} {cells : Array Cell}
      {c : Cursor} (body : m.dictionary.body w = .thread cells)
      (idle : m.cursor = none)
      (reach : Reaches Primitives.pure (m.entering w) x)
      (running : x.cursor = some c)
      (present : (x.dictionary.cells c.word)[c.index]? = some (.word v))
      (rest : Comes (x.fetched c (.word v)) v y z) : Comes m w y z

theorem Comes.trans {m u y : Machine .none} {w v z : Handle}
    (h : Comes m w u v) (h' : Comes u v y z) : Comes m w y z := by
  induction h with
  | self => exact h'
  | exec body popped _ ih => exact .exec body popped (ih h')
  | cell body idle reach running present _ ih =>
    exact .cell body idle reach running present (ih h')

theorem eq_of_popWord {m u : Machine E} {v : Handle}
    (popped : Act.popWord m = .ok v u) :
    ∃ data, u = { m with data := data } := by
  rw [Act.popWord_apply] at popped
  split at popped
  · cases popped
  · next data _ =>
    cases popped
    exact ⟨data, rfl⟩
  · cases popped

/-- While a word is executed, the loop of a run comes to a machine. -/
def Visits (m : Machine .none) (w : Handle) (x : Machine .none) : Prop :=
  ∃ u v cells, Comes m w u v ∧ u.dictionary.body v = .thread cells ∧
    u.cursor = none ∧ Reaches Primitives.pure (u.entering v) x

theorem Visits.of_comes {m u x : Machine .none} {w v : Handle}
    (h : Comes m w u v) (visits : Visits u v x) : Visits m w x := by
  obtain ⟨y, z, cells, comes, rest⟩ := visits
  exact ⟨y, z, cells, h.trans comes, rest⟩

/-- While a word is executed, a step fails by itself and leaves a
machine. -/
inductive Faults (m : Machine .none) (w : Handle) (f : Fault)
    (x : Machine .none) : Prop
  | native {u : Machine .none} {v : Handle} {b : Builtin}
      (comes : Comes m w u v) (body : u.dictionary.body v = .builtin b)
      (acted : b.act (fun _ => starve) (u.working v) =
        .error (.failed f) x) : Faults m w f x
  | stuck {y : Machine .none} {c : Cursor} (visits : Visits m w y)
      (running : y.cursor = some c)
      (atEnd : (y.dictionary.cells c.word).size ≤ c.index)
      (left : Act.exitThread y = .error f x) : Faults m w f x

theorem Faults.of_comes {m u x : Machine .none} {w v : Handle} {f : Fault}
    (h : Comes m w u v) (faults : Faults u v f x) : Faults m w f x := by
  cases faults with
  | native comes body acted => exact .native (h.trans comes) body acted
  | stuck visits running atEnd left =>
    exact .stuck (visits.of_comes h) running atEnd left

/-- The machines that occur while a word is executed. -/
inductive Occurs (m : Machine .none) (w : Handle) : Machine .none → Prop
  | before {u : Machine .none} {v : Handle} (comes : Comes m w u v) :
      Occurs m w u
  | work {u : Machine .none} {v : Handle} {b : Builtin}
      (comes : Comes m w u v) (body : u.dictionary.body v = .builtin b) :
      Occurs m w (u.working v)
  | turn {x : Machine .none} (visits : Visits m w x) : Occurs m w x
  | fault {f : Fault} {x : Machine .none} (faults : Faults m w f x) :
      Occurs m w x

theorem Occurs.of_comes {m u x : Machine .none} {w v : Handle}
    (h : Comes m w u v) (occurs : Occurs u v x) : Occurs m w x := by
  cases occurs with
  | before comes => exact .before (h.trans comes)
  | work comes body => exact .work (h.trans comes) body
  | turn visits => exact .turn (visits.of_comes h)
  | fault faults => exact .fault (faults.of_comes h)

/-! ## The origin of a failure -/

/-- The machine `t` is `x` with control put back. -/
def Unwound (x t : Machine E) : Prop :=
  ∃ cursor base executing blame, t = { x with
    cursor := cursor
    base := base
    executing := executing
    blame := blame }

theorem Unwound.refl (x : Machine E) : Unwound x x := ⟨_, _, _, _, rfl⟩

/-- Control is put back in a machine and blame is laid. -/
theorem Unwound.put {x t : Machine E} (h : Unwound x t)
    (cursor : Option Cursor) (base : Nat) (executing : Option Handle) :
    Unwound x { t.captureBlame with
      cursor := cursor
      base := base
      executing := executing } := by
  obtain ⟨_, _, _, _, rfl⟩ := h
  rw [captureBlame_eq]
  exact ⟨_, _, _, _, rfl⟩

/-- A relation between the machine that a failing step leaves and the one that
is left when control has been put back around it, any number of times. -/
structure Unwinds (P : Machine .none → Machine .none → Prop) : Prop where
  origin : ∀ x, P x x
  put : ∀ {x t : Machine .none} (cursor : Option Cursor) (base : Nat)
    (executing : Option Handle), P x t →
    P x { t.captureBlame with
      cursor := cursor
      base := base
      executing := executing }

theorem unwinds_unwound : Unwinds (Unwound (E := .none)) where
  origin := .refl
  put := fun cursor base executing h => h.put cursor base executing

/-- How an execution that gives no result has come to its end: the machine
left by the origin of the failure is related to the one that is left now. -/
def HaltsBy (P : Machine .none → Machine .none → Prop) (m : Machine .none)
    (w : Handle) (t : Machine .none) : Halt Fault → Prop
  | .failed f => ∃ x, Faults m w f x ∧ P x t
  | .starved => Occurs m w t

/-- How an execution that gives no result has come to its end. -/
def HaltsWith (m : Machine .none) (w : Handle) (t : Machine .none) :
    Halt Fault → Prop
  | .failed f => ∃ x, Faults m w f x ∧ Unwound x t
  | .starved => Occurs m w t

section Halting

variable {P : Machine .none → Machine .none → Prop}

theorem HaltsBy.of_comes {m u t : Machine .none} {w v : Handle}
    {e : Halt Fault} (h : Comes m w u v) (halts : HaltsBy P u v t e) :
    HaltsBy P m w t e := by
  cases e with
  | failed f =>
    obtain ⟨x, faults, unwound⟩ := halts
    exact ⟨x, faults.of_comes h, unwound⟩
  | starved => exact Occurs.of_comes h halts

/-- Control is put back around an execution. -/
theorem HaltsBy.put (k : Unwinds P) {m t : Machine .none} {w : Handle}
    {f : Fault} (halts : HaltsBy P m w t (.failed f))
    (cursor : Option Cursor) (base : Nat) (executing : Option Handle) :
    HaltsBy P m w { t.captureBlame with
      cursor := cursor
      base := base
      executing := executing } (.failed f) := by
  obtain ⟨x, faults, unwound⟩ := halts
  exact ⟨x, faults, k.put _ _ _ unwound⟩

/-- Only `exec` executes words. -/
theorem act_congr {b : Builtin} (other : b ≠ .thread .exec)
    (f g : Handle → Run E Unit) : b.act f = b.act g := by
  cases b with
  | thread w =>
    cases w with
    | exec => exact absurd rfl other
    | _ => rfl
  | _ => rfl

/-- An action does not starve. -/
theorem run_ne_starved {α : Type} (x : Act E α) (m t : Machine E) :
    x.run m ≠ .error .starved t := by
  rw [Act.run_apply]
  split
  · exact nofun
  · exact nofun

/-- So no other word starves. -/
theorem act_ne_starved {b : Builtin} (other : b ≠ .thread .exec)
    (call : Handle → Run E Unit) (m t : Machine E) :
    b.act call m ≠ .error .starved t := by
  cases b with
  | thread w =>
    cases w with
    | exec => exact absurd rfl other
    | bye => exact nofun
    | _ => exact run_ne_starved _ m t
  | _ => exact run_ne_starved _ m t

/-- A native word fails by itself, or because of the word that `exec`
executes. -/
theorem act_halts (k : Unwinds P) {n : Nat} {m t : Machine .none}
    {w : Handle} {b : Builtin} {e : Halt Fault}
    (body : m.dictionary.body w = .builtin b)
    (calls : ∀ {v u t e}, execute Primitives.pure n v u = .error e t →
      HaltsBy P u v t e)
    (acted : b.act (execute Primitives.pure n) (m.working w) = .error e t) :
    HaltsBy P m w t e := by
  by_cases isExec : b = .thread .exec
  · subst isExec
    have own {f : Fault} (h : Act.popWord (m.working w) = .error f t) :
        HaltsBy P m w t (.failed f) := by
      refine ⟨t, .native (.self m w) body ?_, k.origin t⟩
      show (Act.popWord.run >>= fun _ => starve) (m.working w) = _
      rw [Act.bind_apply, Act.run_apply, h]
    replace acted : (Act.popWord.run >>= execute Primitives.pure n)
      (m.working w) = .error e t := acted
    rw [Act.bind_apply, Act.run_apply] at acted
    cases popped : Act.popWord (m.working w) with
    | ok v u =>
      rw [popped] at acted
      exact (calls acted).of_comes (.exec body popped (.self u v))
    | error f u =>
      rw [popped] at acted
      cases acted
      exact own popped
  · cases e with
    | failed f =>
      rw [act_congr isExec _ fun _ => starve] at acted
      exact ⟨t, .native (.self m w) body acted, k.origin t⟩
    | starved => exact absurd acted (act_ne_starved isExec _ _ _)

/-- A loop that gives no result has come to a turn that gives none, or to the
end of its allowance. -/
theorem loop_halts {n : Nat} {m t : Machine .none} {e : Halt Fault}
    (halted : loop Primitives.pure n m = .error e t) :
    ∃ y, Reaches Primitives.pure m y ∧
      (e = .starved ∧ t = y ∨ ∃ k c, k < n ∧ y.cursor = some c ∧
        step (execute Primitives.pure k) c y = .error e t) := by
  induction n generalizing m with
  | zero =>
    cases halted
    exact ⟨_, .refl, .inl ⟨rfl, rfl⟩⟩
  | succ n ih =>
    cases hc : m.cursor with
    | none =>
      rw [loop_of_none _ _ hc] at halted
      cases halted
    | some c =>
      rw [loop_of_some _ _ hc] at halted
      cases turned : step (execute Primitives.pure n) c m with
      | ok a u =>
        rw [turned] at halted
        obtain ⟨y, reach, rest⟩ := ih halted
        refine ⟨y, .head ⟨n, c, hc, turned⟩ reach, ?_⟩
        rcases rest with starved | ⟨k, d, less, running, done⟩
        · exact .inl starved
        · exact .inr ⟨k, d, by omega, running, done⟩
      | error e' u =>
        rw [turned] at halted
        cases halted
        exact ⟨m, .refl, .inr ⟨n, c, by omega, hc, turned⟩⟩

/-- A run of a thread fails at its end, or in one of its words. -/
theorem run_halts (k : Unwinds P) {n : Nat} {m t : Machine .none}
    {w : Handle} {cells : Array Cell} {e : Halt Fault}
    (body : m.dictionary.body w = .thread cells) (idle : m.cursor = none)
    (calls : ∀ {k v u t e}, k < n →
      execute Primitives.pure k v u = .error e t → HaltsBy P u v t e)
    (halted : loop Primitives.pure n (m.entering w) = .error e t) :
    HaltsBy P m w t e := by
  obtain ⟨y, reach, ⟨rfl, rfl⟩ | ⟨_, c, less, running, turned⟩⟩ :=
    loop_halts halted
  · exact .turn ⟨m, w, cells, .self m w, body, idle, reach⟩
  · by_cases atEnd : (y.dictionary.cells c.word).size ≤ c.index
    · rw [step_of_end _ atEnd, Act.run_apply] at turned
      split at turned
      · cases turned
      · next f u left =>
        cases turned
        exact ⟨t, .stuck ⟨m, w, cells, .self m w, body, idle, reach⟩ running
          atEnd left, k.origin t⟩
    · obtain ⟨cell, present⟩ := exists_cell atEnd
      rw [step_of_cell _ running present] at turned
      cases cell with
      | word v =>
        exact (calls less turned).of_comes
          (.cell body idle reach running present (.self _ v))
      | literal v => cases turned

/-- An execution that gives no result: if it fails, what the origin of the
failure left is related to what is left now. -/
theorem execute_haltsBy (k : Unwinds P) {n : Nat} {m t : Machine .none}
    {w : Handle} {e : Halt Fault}
    (halted : execute Primitives.pure n w m = .error e t) :
    HaltsBy P m w t e := by
  induction n using Nat.strongRecOn generalizing m t w e with
  | ind n ih =>
    cases n with
    | zero =>
      cases halted
      exact .before (.self m w)
    | succ n =>
      have dictionary : m.forgetBlame.dictionary = m.dictionary := by
        rw [forgetBlame_eq]
      have cursor : m.forgetBlame.cursor = m.cursor := by
        rw [forgetBlame_eq]
      rw [execute] at halted
      dsimp only at halted
      rw [dictionary, cursor] at halted
      split at halted
      · next b body =>
        have acts {e t} := act_halts k (t := t) (e := e) body
          (fun h => ih n (by omega) h)
        unfold invoke at halted
        split at halted
        · cases halted
        · next f u acted =>
          cases halted
          exact (acts acted).put k u.captureBlame.cursor u.captureBlame.base _
        · next u acted =>
          cases halted
          exact acts acted
      · next code _ => exact code.elim
      · next cells body =>
        split at halted
        · cases halted
        · next idle =>
          have runs {e t} := run_halts k (t := t) (e := e) (n := n) body idle
            (fun less h => ih _ (by omega) h)
          unfold startRun at halted
          dsimp only at halted
          split at halted
          · cases halted
          · next f u ran =>
            cases halted
            exact (runs ran).put k none _ u.captureBlame.executing
          · next u ran =>
            cases halted
            exact runs ran

end Halting

/-- **An execution that gives no result.**  If it fails, the machine left is
the one that the origin of the failure left, with control put back; if it
starves, the machine is one that occurs in it. -/
theorem execute_halts {n : Nat} {m t : Machine .none} {w : Handle}
    {e : Halt Fault} (halted : execute Primitives.pure n w m = .error e t) :
    HaltsWith m w t e := by
  have halts := execute_haltsBy unwinds_unwound halted
  cases e with
  | failed f => exact halts
  | starved => exact halts

/-! ## The outer interpreters -/

/-- The two outer interpreters: the rule that reads and processes tokens, and
the thread that does the same. -/
inductive Outer where
  | rule
  | thread
deriving DecidableEq, Repr

/-- What an outer interpreter does. -/
def Outer.run (outer : Outer) (p : Primitives E) (policy : OnError)
    (n : Nat) : Script E Unit :=
  match outer with
  | .rule => interpret p policy n
  | .thread => boot p policy n

/-- A value that is pushed or compiled, and not executed. -/
def Inert (m : Machine .none) (v : Value) : Prop :=
  ∀ w, v = .word w → ¬ (m.interpreting ∨ m.dictionary.isImmediate w)

/-- An outer interpreter comes to execute a word. -/
inductive Outer.Executes :
    Outer → Machine .none → Machine .none → Handle → Prop
  | token {m u : Machine .none} {token : Token} {w : Handle}
      (going : m.finished = false) (read : m.nextToken = (some token, u))
      (meant : u.dictionary.translate token.text = .word w)
      (runs : u.interpreting ∨ u.dictionary.isImmediate w) :
      Executes .rule m u w
  | init {m : Machine .none} {w : Handle} (going : m.finished = false)
      (found : m.builtins.find? "init" = some w) : Executes .thread m m w

/-- An attempt of an outer interpreter to go on fails. -/
inductive Outer.Breaks : Outer → Machine .none → Fault → Machine .none → Prop
  | executing {outer : Outer} {m u x : Machine .none} {w : Handle} {n : Nat}
      {f : Fault} (executes : outer.Executes m u w)
      (failed : execute Primitives.pure n w u = .error (.failed f) x) :
      Breaks outer m f x
  | compiling {m u x : Machine .none} {token : Token} {f : Fault}
      (going : m.finished = false) (read : m.nextToken = (some token, u))
      (inert : Inert u (u.dictionary.translate token.text))
      (failed : processToken Primitives.pure 0 token u =
        .error (.failed f) x) : Breaks .rule m f x

/-- An outer interpreter goes on: it has processed a token, or it has passed
over a failure. -/
inductive Outer.Round (outer : Outer) (policy : OnError) :
    Machine .none → Machine .none → Prop
  | token {m t : Machine .none} (rule : outer = .rule)
      (consumes : Consumes Primitives.pure m t) : Round outer policy m t
  | resumed {m x t : Machine .none} {f : Fault} (breaks : outer.Breaks m f x)
      (handled : handleError policy f x = .ok () t) : Round outer policy m t

/-- The machines that occur in a run of an outer interpreter. -/
inductive Moment (outer : Outer) (policy : OnError) (m : Machine .none) :
    Machine .none → Prop
  /-- Between two rounds. -/
  | top {x : Machine .none}
      (rounds : ReflTransGen (outer.Round policy) m x) :
      Moment outer policy m x
  /-- When a token has been read, or the end of the input found. -/
  | read {x : Machine .none}
      (rounds : ReflTransGen (outer.Round policy) m x)
      (rule : outer = .rule) (going : x.finished = false) :
      Moment outer policy m x.nextToken.2
  /-- While a word is executed. -/
  | during {x u y : Machine .none} {w : Handle}
      (rounds : ReflTransGen (outer.Round policy) m x)
      (executes : outer.Executes x u w) (occurs : Occurs u w y) :
      Moment outer policy m y
  /-- When it has been executed. -/
  | after {x u y : Machine .none} {w : Handle} {n : Nat}
      (rounds : ReflTransGen (outer.Round policy) m x)
      (executes : outer.Executes x u w)
      (done : execute Primitives.pure n w u = .ok () y) :
      Moment outer policy m y
  /-- When an attempt has failed. -/
  | broken {x y : Machine .none} {f : Fault}
      (rounds : ReflTransGen (outer.Round policy) m x)
      (breaks : outer.Breaks x f y) : Moment outer policy m y
  /-- When the failure has been dealt with. -/
  | recovered {x y : Machine .none} {f : Fault}
      (rounds : ReflTransGen (outer.Round policy) m x)
      (breaks : outer.Breaks x f y) : Moment outer policy m (y.recover f).2

/-- What occurs after a round occurs. -/
theorem Moment.of_round {outer : Outer} {policy : OnError}
    {m m' y : Machine .none} (round : outer.Round policy m m')
    (moment : Moment outer policy m' y) : Moment outer policy m y := by
  cases moment with
  | top rounds => exact .top (.head round rounds)
  | read rounds rule going => exact .read (.head round rounds) rule going
  | during rounds executes occurs =>
    exact .during (.head round rounds) executes occurs
  | after rounds executes done =>
    exact .after (.head round rounds) executes done
  | broken rounds breaks => exact .broken (.head round rounds) breaks
  | recovered rounds breaks => exact .recovered (.head round rounds) breaks

/-! ## Tokens -/

/-- A value that is not executed is dealt with in no time. -/
theorem processValue_of_inert {m : Machine .none} {v : Value}
    (inert : Inert m v) (n k : Nat) :
    processValue Primitives.pure n v m =
      processValue Primitives.pure k v m := by
  cases v with
  | word w =>
    unfold processValue
    dsimp only
    rw [if_neg (inert w rfl), if_neg (inert w rfl)]
  | _ => rfl

/-- A token that is not executed does not starve. -/
theorem processValue_ne_starved {m t : Machine .none} {v : Value} {n : Nat}
    (inert : Inert m v) :
    processValue Primitives.pure n v m ≠ .error .starved t := by
  unfold processValue
  split
  · next w =>
    rw [if_neg (inert w rfl)]
    exact run_ne_starved _ _ _
  · split
    · exact run_ne_starved _ _ _
    · exact run_ne_starved _ _ _

/-- It keeps what the built-in words keep. -/
theorem Keeper.inert {P : Machine .none → Prop} (k : Keeper P)
    {m : Machine .none} {v : Value} (inert : Inert m v) (n : Nat) (h : P m) :
    P (leftBy (Machine.processValue Primitives.pure n v m)) := by
  unfold Machine.processValue
  split
  · next w =>
    rw [if_neg (inert w rfl)]
    exact (k.compile _).run m h
  · split
    · exact (k.push _).run m h
    · exact (k.compileLiteral _).run m h

/-! ## Being told to stop -/

/-- Of the native words only `bye` tells the machine to stop. -/
theorem keeper_going : Keeper fun m : Machine E => m.finished = false :=
  .of_frames (fun _ _ h => h) fun touch h => by
    cases touch <;> exact h

theorem forgetBlame_finished (m : Machine E) :
    m.forgetBlame.finished = m.finished := by
  rw [forgetBlame_eq]

/-- Words come to be executed as long as the machine goes on. -/
theorem Comes.going {m u : Machine .none} {w v : Handle}
    (comes : Comes m w u v) (going : m.finished = false) :
    u.finished = false := by
  induction comes with
  | self => exact going
  | @exec m u y w v z body popped _ ih =>
    obtain ⟨data, rfl⟩ := eq_of_popWord popped
    exact ih (m.forgetBlame_finished.trans going)
  | @cell m x y w v z cells c body idle reach running present _ ih =>
    have entered : (m.entering w).finished = false :=
      m.forgetBlame_finished.trans going
    have later := Reaches.going reach entered (by simp [running])
    refine ih ?_
    rw [fetched_eq]
    exact later

/-- **What fails has not been told to stop.** -/
theorem Faults.going {m x : Machine .none} {w : Handle} {f : Fault}
    (faults : Faults m w f x) (going : m.finished = false) :
    x.finished = false := by
  cases faults with
  | @native u v b comes body acted =>
    by_cases isBye : b = .thread .bye
    · subst isBye
      cases acted
    · have keeps : Keeps (fun m : Machine .none => m.finished = false)
          (b.act fun _ => starve) :=
        keeper_going.act (fun _ => Keeps.exitThread fun _ _ h => h)
          (fun h => absurd h isBye) fun _ _ _ h => h
      have kept := keeps (u.working v)
        (u.forgetBlame_finished.trans (comes.going going))
      rw [acted] at kept
      exact kept
  | @stuck y c visits running atEnd left =>
    obtain ⟨u, v, cells, comes, _, _, reach⟩ := visits
    have entered : (u.entering v).finished = false :=
      u.forgetBlame_finished.trans (comes.going going)
    have before := Reaches.going reach entered (by simp [running])
    have kept := Keeps.exitThread
      (P := fun m : Machine .none => m.finished = false)
      (fun _ _ h => h) y before
    rw [left] at kept
    exact kept

/-- After an attempt that fails the next one can be made. -/
theorem Outer.Breaks.going {outer : Outer} {m x : Machine .none} {f : Fault}
    (breaks : outer.Breaks m f x) : x.finished = false := by
  cases breaks with
  | executing executes failed =>
    obtain ⟨z, faults, _, _, _, _, rfl⟩ := execute_halts failed
    refine faults.going ?_
    cases executes with
    | token going read _ _ =>
      have kept := keeper_going.touches (touches_nextToken m) going
      rwa [read] at kept
    | init going _ => exact going
  | @compiling _ u _ token _ going read inert failed =>
    have reads := keeper_going.touches (touches_nextToken m) going
    rw [read] at reads
    have kept := keeper_going.inert inert 0 reads
    have same : Machine.processValue Primitives.pure 0
      (u.dictionary.translate token.text) u = .error (.failed f) x := failed
    rw [same] at kept
    exact kept

/-- A word that is executed. -/
theorem processToken_of_word {m : Machine .none} {token : Token} {w : Handle}
    (meant : m.dictionary.translate token.text = .word w)
    (runs : m.interpreting ∨ m.dictionary.isImmediate w) (n : Nat) :
    processToken Primitives.pure n token m =
      execute Primitives.pure n w m := by
  unfold processToken
  rw [meant]
  unfold processValue
  dsimp only
  rw [if_pos runs]

/-- A token is a word that is executed, or it is not executed. -/
theorem executes_or_inert (m : Machine .none) (v : Value) :
    (∃ w, v = .word w ∧ (m.interpreting ∨ m.dictionary.isImmediate w)) ∨
      Inert m v := by
  by_cases h : ∃ w, v = .word w ∧
      (m.interpreting ∨ m.dictionary.isImmediate w)
  · exact .inl h
  · exact .inr fun w hw runs => h ⟨w, hw, runs⟩

/-- A token that gives no result: the attempt fails, or what is left occurs
while a word is executed. -/
theorem processToken_halts {m u t : Machine .none} {token : Token} {n : Nat}
    {e : Halt Fault} (going : m.finished = false)
    (read : m.nextToken = (some token, u))
    (halted : processToken Primitives.pure n token u = .error e t) :
    (∃ f, e = .failed f ∧ Outer.rule.Breaks m f t) ∨
      e = .starved ∧ ∃ w, Outer.rule.Executes m u w ∧ Occurs u w t := by
  rcases executes_or_inert u (u.dictionary.translate token.text) with
    ⟨w, meant, runs⟩ | inert
  · rw [processToken_of_word meant runs] at halted
    have executes : Outer.rule.Executes m u w := .token going read meant runs
    cases e with
    | failed f => exact .inl ⟨f, rfl, .executing executes halted⟩
    | starved => exact .inr ⟨rfl, w, executes, execute_halts halted⟩
  · cases e with
    | failed f =>
      have same := processValue_of_inert inert n 0
      exact .inl ⟨f, rfl, .compiling going read inert (same.symm.trans halted)⟩
    | starved => exact absurd halted (processValue_ne_starved inert)

/-! ## Whole runs -/

theorem moment_of_interpret (policy : OnError) (n : Nat) (m : Machine .none) :
    Moment .rule policy m
      (leftBy (interpret Primitives.pure policy n m)) := by
  induction n generalizing m with
  | zero => exact .top .refl
  | succ n ih =>
    rw [interpret]
    dsimp only
    split
    · exact .top .refl
    · next going =>
      replace going : m.finished = false := Bool.eq_false_iff.2 going
      have found : Moment .rule policy m m.nextToken.2 :=
        .read .refl rfl going
      split
      · next u read =>
        rw [read] at found
        exact found
      · next token u read =>
        cases processed : processToken Primitives.pure n token u with
        | ok a t =>
          refine .of_round (.token rfl ?_) (ih t)
          exact ⟨n, token, u, going, read, processed⟩
        | error e t =>
          rcases processToken_halts going read processed with
            ⟨f, rfl, breaks⟩ | ⟨rfl, w, executes, occurs⟩
          · cases policy with
            | stop => exact .recovered .refl breaks
            | resume => exact .of_round (.resumed breaks rfl) (ih _)
          · exact .during .refl executes occurs

/-- The built-in words of a machine stay what they are. -/
theorem Grows.builtins {m t : Machine E} (h : Grows m t) :
    t.builtins = m.builtins := by
  induction h with
  | refl => rfl
  | tail _ grow ih =>
    cases grow with
    | control => exact ih
    | touch touch => cases touch <;> exact ih

theorem moment_of_bootFrom (policy : OnError) {init : Handle} (n : Nat)
    (m : Machine .none) (found : m.builtins.find? "init" = some init) :
    Moment .thread policy m
      (leftBy (bootFrom Primitives.pure policy init n m)) := by
  induction n generalizing m with
  | zero => exact .top .refl
  | succ n ih =>
    rw [bootFrom]
    dsimp only
    split
    · exact .top .refl
    · next going =>
      have executes : Outer.thread.Executes m m init :=
        .init (Bool.eq_false_iff.2 going) found
      have grows := execute_grows n init m
      cases executed : execute Primitives.pure n init m with
      | ok a t => exact .after .refl executes executed
      | error e t =>
        cases e with
        | starved => exact .during .refl executes (execute_halts executed)
        | failed f =>
          have breaks : Outer.thread.Breaks m f t :=
            .executing executes executed
          cases policy with
          | stop => exact .recovered .refl breaks
          | resume =>
            rw [executed] at grows
            have same := Grows.builtins
              (grows.trans (handleError_grows .resume f t))
            exact .of_round (.resumed breaks rfl) (ih _ (same ▸ found))

/-- Booting looks the thread up and executes it. -/
theorem boot_apply (p : Primitives E) (policy : OnError) (n : Nat)
    (m : Machine E) :
    boot p policy n m =
      match m.builtins.find? "init" with
      | none => .error (.failed (.ofFault (.notExecutable "init"))) m
      | some init => bootFrom p policy init n m := by
  unfold boot
  rw [Act.bind_apply]
  unfold mapHalt
  rw [Act.builtin_apply]
  cases m.builtins.find? "init" <;> rfl

/-- **Whatever an outer interpreter leaves behind is a moment of its run**,
however it ends. -/
theorem moment_of_run (outer : Outer) (policy : OnError) (n : Nat)
    (m : Machine .none) :
    Moment outer policy m
      (leftBy (outer.run Primitives.pure policy n m)) := by
  cases outer with
  | rule => exact moment_of_interpret policy n m
  | thread =>
    show Moment .thread policy m (leftBy (boot Primitives.pure policy n m))
    rw [boot_apply]
    split
    · exact .top .refl
    · next init found => exact moment_of_bootFrom policy n m found

end Machine

end Forth
