import Forth.Proofs.Recovery
import Forth.Proofs.Seated

/-!
# Cursors and return addresses stay intact

Between two runs no thread is running (`Resting`), and each round of an outer
interpreter leaves it so.  Therefore every word that an outer interpreter
executes can be executed, and cursors are intact at every moment of a run
(`Moment.intact`) and of a session of many runs (`Session.resting`).

A call leaves the return stack in four ways only.  The thread that it waits
for exits or runs off its end, or the machine is told to stop: these are the
ways to quit a thread (`Quits`), and `execute_callers` says that without them
no execution loses a call.  The fourth way is recovery from a failure
(`round_callers`).

Main statement: `cursors_stay_intact`.
-/

namespace Forth.Machine

open Relation

variable {E : Embedding}

/-! ## Rounds -/

/-- No thread is running. -/
structure Resting (m : Machine E) : Prop extends Intact m where
  idle : m.cursor = none

/-- Whoever puts the control state back and leaves the cursors intact leaves the
machine at rest. -/
theorem Resting.of_restored {m t : Machine E} (h : Resting m)
    (intact : Intact t) (restored : Restored m t) : Resting t where
  toIntact := intact
  idle := restored.idle h.idle

/-- Reading a token touches no cursor. -/
theorem IntactBut.read {old : List Frame} {m u : Machine .none}
    {token : Option Token} (h : IntactBut old m)
    (read : m.nextToken = (token, u)) : IntactBut old u := by
  have intact := (keeper_intactBut old).touches (touches_nextToken m) h
  rw [read] at intact
  exact intact

theorem Resting.read {m u : Machine .none} {token : Option Token}
    (h : Resting m) (read : m.nextToken = (token, u)) : Resting u := by
  have intact := (intactBut_nil_iff.mpr h.toIntact).read read
  have restored := nextToken_restored m
  rw [read] at restored
  exact h.of_restored (intactBut_nil_iff.mp intact) restored

theorem Outer.Executes.resting {outer : Outer} {m u : Machine .none}
    {w : Handle} (executes : outer.Executes m u w) (h : Resting m) :
    Resting u := by
  cases executes with
  | token _ read _ _ => exact h.read read
  | init => exact h

/-- A machine at rest is ready to execute any word. -/
theorem Resting.ready {m : Machine E} (h : Resting m) (w : Handle) :
    Ready [] m w :=
  h.toIntact.ready h.idle w

/-- A token is processed, or the attempt fails. -/
theorem processToken_intactBut {old : List Frame} {m : Machine .none}
    (h : IntactBut old m) (idle : m.cursor = none) (n : Nat)
    (token : Token) :
    IntactBut old (leftBy (processToken Primitives.pure n token m)) := by
  rcases executes_or_inert m (m.dictionary.translate token.text) with
    ⟨w, meant, runs⟩ | inert
  · rw [processToken_of_word meant runs]
    exact execute_intactBut (h.ready idle w) n
  · exact (keeper_intactBut old).inert inert n h

theorem processToken_intact {m : Machine .none} (h : Resting m) (n : Nat)
    (token : Token) :
    Intact (leftBy (processToken Primitives.pure n token m)) :=
  intactBut_nil_iff.mp
    (processToken_intactBut (intactBut_nil_iff.mpr h.toIntact) h.idle n token)

/-- A token that is read and executed leaves the cursors intact, those that were
set apart included. -/
theorem Consumes.intactBut {old : List Frame} {m t : Machine .none}
    (consumes : Consumes Primitives.pure m t) (h : IntactBut old m)
    (idle : m.cursor = none) : IntactBut old t := by
  obtain ⟨n, token, u, _, read, done⟩ := consumes
  have restored := nextToken_restored m
  rw [read] at restored
  have intact :=
    processToken_intactBut (h.read read) (restored.idle idle) n token
  rw [done] at intact
  exact intact

theorem Consumes.resting {m t : Machine .none}
    (consumes : Consumes Primitives.pure m t) (h : Resting m) :
    Resting t := by
  have intact := consumes.intactBut (intactBut_nil_iff.mpr h.toIntact) h.idle
  exact h.of_restored (intactBut_nil_iff.mp intact) consumes.restored

/-- Recovery leaves neither a thread nor a call. -/
theorem recover_resting (m : Machine E) (f : Fault) :
    Resting (m.recover f).2 where
  toIntact := .of_nothing rfl nofun
  idle := rfl

/-- A failure that is passed over puts the machine to rest, whatever it left
behind. -/
theorem handleError_resting {policy : OnError} {f : Fault}
    {m t : Machine E} (handled : handleError policy f m = .ok () t) :
    Resting t := by
  cases policy with
  | stop => cases handled
  | resume =>
    cases handled
    exact ⟨.of_nothing rfl nofun, rfl⟩

theorem Outer.Round.resting {outer : Outer} {policy : OnError}
    {m t : Machine .none} (round : outer.Round policy m t) (h : Resting m) :
    Resting t := by
  cases round with
  | token _ consumes => exact consumes.resting h
  | resumed _ handled => exact handleError_resting handled

/-- So is it after any number of rounds. -/
theorem rounds_resting {outer : Outer} {policy : OnError}
    {m t : Machine .none} (rounds : ReflTransGen (outer.Round policy) m t)
    (h : Resting m) : Resting t := by
  induction rounds with
  | refl => exact h
  | tail _ round ih => exact round.resting ih

theorem Outer.Breaks.intact {outer : Outer} {m x : Machine .none} {f : Fault}
    (breaks : outer.Breaks m f x) (h : Resting m) : Intact x := by
  cases breaks with
  | @executing _ m u x w n f executes failed =>
    have left := execute_intact ((executes.resting h).ready w) n
    rw [failed] at left
    exact left
  | @compiling m u x token f _ read _ failed =>
    have left := processToken_intact (h.read read) 0 token
    rw [failed] at left
    exact left

/-- **Cursors are intact at every moment.** -/
theorem Moment.intact {outer : Outer} {policy : OnError}
    {m y : Machine .none} (moment : Moment outer policy m y)
    (h : Resting m) : Intact y := by
  cases moment with
  | top rounds => exact (rounds_resting rounds h).toIntact
  | read rounds => exact ((rounds_resting rounds h).read rfl).toIntact
  | during rounds executes occurs =>
    exact occurs.intact ((executes.resting (rounds_resting rounds h)).ready _)
  | @after x u y w n rounds executes done =>
    have resting := executes.resting (rounds_resting rounds h)
    have left := execute_intact (resting.ready w) n
    rw [done] at left
    exact left
  | broken rounds breaks => exact breaks.intact (rounds_resting rounds h)
  | recovered => exact (recover_resting _ _).toIntact

/-! ## Sessions -/

/-- Interpreting ends with no cursor if it began with none. -/
theorem interpret_idle {policy : OnError} (n : Nat) {m : Machine .none}
    (idle : m.cursor = none) :
    Ends (interpret Primitives.pure policy n m) →
      (leftBy (interpret Primitives.pure policy n m)).cursor = none := by
  induction n generalizing m with
  | zero => exact fun ends => absurd rfl (ends m)
  | succ n ih =>
    rw [interpret]
    dsimp only
    split
    · exact fun _ => idle
    · have reads := nextToken_restored m
      split
      · next u read =>
        rw [read] at reads
        exact fun _ => reads.idle idle
      · next token u read =>
        rw [read] at reads
        have restored : Ends (processToken Primitives.pure n token u) →
            Restored u (leftBy (processToken Primitives.pure n token u)) :=
          processToken_restored
        generalize processToken Primitives.pure n token u = r at restored
        cases r with
        | ok a t =>
          exact ih ((restored (ends_ok _ _)).idle (reads.idle idle))
        | error e t =>
          cases e with
          | starved => exact fun ends => absurd rfl (ends t)
          | failed f =>
            cases policy with
            | stop => exact fun _ => rfl
            | resume => exact ih rfl

/-- And so does booting, since each attempt returns to where it was called. -/
theorem bootFrom_idle {policy : OnError} {init : Handle} (n : Nat)
    {m : Machine .none} (idle : m.cursor = none) :
    Ends (bootFrom Primitives.pure policy init n m) →
      (leftBy (bootFrom Primitives.pure policy init n m)).cursor = none := by
  induction n generalizing m with
  | zero => exact fun ends => absurd rfl (ends m)
  | succ n ih =>
    rw [bootFrom]
    dsimp only
    split
    · exact fun _ => idle
    · have restored := execute_restored (n := n) (w := init) (m := m)
      generalize execute Primitives.pure n init m = r at restored
      cases r with
      | ok a t => exact fun _ => (restored (ends_ok _ _)).idle idle
      | error e t =>
        cases e with
        | starved => exact fun ends => absurd rfl (ends t)
        | failed f =>
          cases policy with
          | stop => exact fun _ => rfl
          | resume => exact ih rfl

/-- A run that has ended leaves no thread running. -/
theorem run_idle {outer : Outer} {policy : OnError} {n : Nat}
    {m : Machine .none} (idle : m.cursor = none) :
    Ends (outer.run Primitives.pure policy n m) →
      (leftBy (outer.run Primitives.pure policy n m)).cursor = none := by
  cases outer with
  | rule => exact interpret_idle n idle
  | thread =>
    show Ends (boot Primitives.pure policy n m) →
      (leftBy (boot Primitives.pure policy n m)).cursor = none
    rw [boot_apply]
    split
    · exact fun _ => idle
    · exact bootFrom_idle n idle

/-- A machine between two runs.  At first it runs no thread and has no call
on its return stack, as a new one; then it has run one input after the other,
each through either outer interpreter. -/
inductive Session : Machine .none → Prop
  | start {m : Machine .none} (idle : m.cursor = none)
      (parked : OnlyParked m.returns.items) : Session m
  | run {m : Machine .none} (before : Session m) (outer : Outer)
      (policy : OnError) (n : Nat) (input : Source)
      (ends : Ends (outer.run Primitives.pure policy n
        { m with input := input })) :
      Session (leftBy (outer.run Primitives.pure policy n
        { m with input := input }))

theorem Resting.given {m : Machine E} (h : Resting m) (input : Source) :
    Resting { m with input := input } :=
  ⟨h.toIntact.of_same rfl rfl rfl, h.idle⟩

/-- Between two texts of a session the machine is at rest. -/
theorem Session.resting {m : Machine .none} (session : Session m) :
    Resting m := by
  induction session with
  | start idle parked => exact ⟨.of_nothing idle parked, idle⟩
  | run _ outer policy n input ends ih =>
    have given := ih.given input
    exact ⟨(moment_of_run outer policy n _).intact given,
      run_idle given.idle ends⟩

/-! ## Calls that leave the return stack -/

/-- The callers on the return stack, the latest first. -/
def callers (m : Machine E) : List Cursor :=
  m.returns.items.filterMap fun
    | .call c => some c
    | .value _ => none

/-- While a word is executed, a thread is left: by `exit`, at its end, or
because the machine is told to stop. -/
inductive Quits (m : Machine .none) (w : Handle) : Prop
  | exit {u : Machine .none} {v : Handle} (comes : Comes m w u v)
      (body : u.dictionary.body v = .builtin (.thread .exit)) : Quits m w
  | bye {u : Machine .none} {v : Handle} (comes : Comes m w u v)
      (body : u.dictionary.body v = .builtin (.thread .bye)) : Quits m w
  | atEnd {x : Machine .none} {c : Cursor} (visits : Visits m w x)
      (running : x.cursor = some c)
      (ended : (x.dictionary.cells c.word).size ≤ c.index) : Quits m w

/-- A thread that is left further in is left. -/
theorem Quits.of_comes {m u : Machine .none} {w v : Handle}
    (h : Comes m w u v) (quits : Quits u v) : Quits m w := by
  cases quits with
  | exit comes body => exact .exit (h.trans comes) body
  | bye comes body => exact .bye (h.trans comes) body
  | atEnd visits running ended =>
    exact .atEnd (visits.of_comes h) running ended

theorem callers_of_returns {m t : Machine E} (same : t.returns = m.returns) :
    t.callers = m.callers := by
  unfold callers
  rw [same]

/-- A value that is parked is no caller. -/
theorem callers_cons_value {m t : Machine E} {v : Value}
    (frames : t.returns.items = .value v :: m.returns.items) :
    t.callers = m.callers := by
  unfold callers
  rw [frames]
  rfl

/-- Taking back fails before anything else is done. -/
theorem refusal {w : StackWord} (which : w = .fromReturn ∨ w = .dropReturn)
    {m t : Machine E} {f : Fault} (failed : w.act m = .error f t) :
    t.returns.items = m.returns.items := by
  have first : StackWord.takeParked m = .error f t := by
    rcases which with rfl | rfl
    all_goals
      rw [StackWord.act, Act.bind_apply] at failed
      split at failed
      · cases failed
      · cases failed
        assumption
  exact (takeParked_error first).1

end Forth.Machine
