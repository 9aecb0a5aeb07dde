import Forth.Engine.Allowance
import Forth.Interpreter
import Forth.Proofs.Following
import Mathlib.Logic.Relation

/-!
# Turns and tokens, without allowances

The inner interpreter takes one turn after another, the outer interpreter one
token after another.  Here both are relations between machines, in which no
allowance shows: one turn leads from a machine to the next if it does so with
some allowance, and by `turn_unique` with every allowance that suffices.

Main statements: `exists_loop_of_reaches` and `reaches_of_loop` say that the
loop is a row of turns that comes to an end, `exists_loop_of_fails` the same
of a row that fails, `loop_failed_of_reaches` that a loop which fails has taken
every turn on the way, and `exists_interpret_of_consumes` that interpreting is
a row of tokens.

`Avoids` says of a computation that it never uses a certain built-in word:
with that word out of reach nothing changes.  `AvoidsAll` says so of several
words at once.
-/

namespace Forth

open Relation

variable {E : Embedding} {ε α : Type}

/-- A result other than starvation. -/
def Ends (r : EStateM.Result (Halt ε) (Machine E) α) : Prop :=
  ∀ after, r ≠ .error .starved after

@[simp] theorem ends_ok (a : α) (m : Machine E) :
    Ends (.ok a m : EStateM.Result (Halt ε) (Machine E) α) :=
  fun _ h => by cases h

@[simp] theorem ends_failed (e : ε) (m : Machine E) :
    Ends (.error (.failed e) m : EStateM.Result (Halt ε) (Machine E) α) :=
  fun _ h => by cases h

/-- Where a cut ends, it does what the other computation does. -/
theorem Cut.eq_of_ends {x y : EStateM (Halt ε) (Machine E) α}
    (h : Cut x y) {m : Machine E} (ends : Ends (x m)) : y m = x m := by
  rcases h m with ⟨after, hstarved⟩ | hsame
  · exact absurd hstarved (ends after)
  · exact hsame

/-- Where a cut ends well, the other computation ends in the same machine. -/
theorem Cut.eq_ok {x y : EStateM (Halt ε) (Machine E) α} (h : Cut x y)
    {a : α} {m t : Machine E} (done : x m = .ok a t) : y m = .ok a t :=
  (h.eq_of_ends (done ▸ ends_ok a t)).trans done

/-- The built-in words do not look at whether an inner computation
starved. -/
theorem Primitives.pure_cut : Primitives.pure.Cut Primitives.pure :=
  Primitives.standard_cut _

/-- A computation that never uses a word comes out the same with that word
out of reach. -/
def Avoids (b : Builtin)
    (x : Primitives .none → EStateM (Halt ε) (Machine .none) α)
    (m : Machine .none) : Prop :=
  x (Primitives.pure.without (· == b)) m = x Primitives.pure m

/-- The same for a computation that uses none of some words. -/
def AvoidsAll (barred : Builtin → Bool)
    (x : Primitives .none → EStateM (Halt ε) (Machine .none) α)
    (m : Machine .none) : Prop :=
  x (Primitives.pure.without barred) m = x Primitives.pure m

/-- A computation that ends with words out of reach avoids them. -/
theorem avoidsAll_of_ends {barred : Builtin → Bool}
    {x : Primitives .none → EStateM (Halt ε) (Machine .none) α}
    {m : Machine .none}
    (cut : Cut (x (Primitives.pure.without barred)) (x Primitives.pure))
    (ends : Ends (x (Primitives.pure.without barred) m)) :
    AvoidsAll barred x m :=
  (cut.eq_of_ends ends).symm

theorem avoidsAll_of_isOk {barred : Builtin → Bool}
    {x : Primitives .none → EStateM (Halt ε) (Machine .none) Unit}
    {m : Machine .none}
    (cut : Cut (x (Primitives.pure.without barred)) (x Primitives.pure))
    (h : isOk (x (Primitives.pure.without barred) m) = true) :
    AvoidsAll barred x m := by
  have ended := eq_ok_of_isOk h
  exact avoidsAll_of_ends cut (ended ▸ ends_ok _ _)

/-- A computation that ends well with a word out of reach avoids it. -/
theorem avoids_of_isOk {b : Builtin}
    {x : Primitives .none → EStateM (Halt ε) (Machine .none) Unit}
    {m : Machine .none}
    (cut : Cut (x (Primitives.pure.without (· == b))) (x Primitives.pure))
    (h : isOk (x (Primitives.pure.without (· == b)) m) = true) :
    Avoids b x m :=
  avoidsAll_of_isOk cut h

namespace Machine

/-- The machine that has run a text at the start of its life. -/
def having (text : String) : Machine .none :=
  leftBy (processSource Primitives.pure 200 "" text (new .unlimited none ()))

/-! ## Turns of the inner interpreter -/

/-- One turn of the loop. -/
def Turn (p : Primitives E) (m t : Machine E) : Prop :=
  ∃ n c, m.cursor = some c ∧ step (execute p n) c m = .ok () t

/-- Finitely many turns. -/
abbrev Reaches (p : Primitives E) : Machine E → Machine E → Prop :=
  ReflTransGen (Turn p)

/-- A turn that fails. -/
def Fails (p : Primitives E) (m : Machine E) (f : Fault) (t : Machine E) :
    Prop :=
  ∃ n c, m.cursor = some c ∧
    step (execute p n) c m = .error (.failed f) t

/-- With no thread running the loop is over. -/
theorem loop_of_none (p : Primitives E) (n : Nat) {m : Machine E}
    (h : m.cursor = none) : loop p (n + 1) m = .ok () m := by
  rw [loop]
  simp only [h]

/-- With a thread running the loop takes a turn. -/
theorem loop_of_some (p : Primitives E) (n : Nat) {m : Machine E}
    {c : Cursor} (h : m.cursor = some c) :
    loop p (n + 1) m =
      match step (execute p n) c m with
      | .ok () t => loop p n t
      | .error e t => .error e t := by
  cases turned : step (execute p n) c m with
  | ok a t =>
    rw [loop]
    simp only [h, turned]
  | error e t =>
    rw [loop]
    simp only [h, turned]

/-- A turn is the same with every allowance with which it ends. -/
theorem step_eq_of_ends {p q : Primitives E} (h : p.Cut q) {n k : Nat}
    (hk : n ≤ k) {c : Cursor} {m : Machine E}
    (ends : Ends (step (execute p n) c m)) :
    step (execute q k) c m = step (execute p n) c m :=
  (step_cut (fun w => execute_cut h w hk) c).eq_of_ends ends

/-- From every machine there is at most one turn. -/
theorem turn_unique {p : Primitives E} (h : p.Cut p) {m t u : Machine E}
    (ht : Turn p m t) (hu : Turn p m u) : t = u := by
  obtain ⟨n, c, hc, hstep⟩ := ht
  obtain ⟨k, d, hd, hstep'⟩ := hu
  have same : c = d := Option.some.inj (hc.symm.trans hd)
  subst same
  have left := step_eq_of_ends h (Nat.le_max_left n k)
    (by rw [hstep]; exact ends_ok () t)
  have right := step_eq_of_ends h (Nat.le_max_right n k)
    (by rw [hstep']; exact ends_ok () u)
  rw [left, hstep, hstep'] at right
  cases right
  rfl

/-- Two allowances that suffice for a word give the same result. -/
theorem execute_unique {p : Primitives E} (h : p.Cut p) {n k : Nat}
    {w : Handle} {m : Machine E} (ends : Ends (execute p n w m))
    (ends' : Ends (execute p k w m)) :
    execute p n w m = execute p k w m := by
  have left := (execute_cut h w (Nat.le_max_left n k)).eq_of_ends ends
  have right := (execute_cut h w (Nat.le_max_right n k)).eq_of_ends ends'
  exact left.symm.trans right

/-- The loop goes on after a turn as it would from there. -/
theorem exists_loop_of_turn {p : Primitives E} (h : p.Cut p)
    {m t : Machine E} (turn : Turn p m t) {n : Nat}
    (ends : Ends (loop p n t)) : ∃ k, loop p k m = loop p n t := by
  obtain ⟨j, c, hc, hstep⟩ := turn
  refine ⟨max j n + 1, ?_⟩
  have turned := step_eq_of_ends h (Nat.le_max_left j n)
    (by rw [hstep]; exact ends_ok () t)
  have rest := (loop_cut h (Nat.le_max_right j n)).eq_of_ends ends
  rw [loop_of_some p _ hc, turned, hstep]
  exact rest

/-- The loop goes on after any number of turns as it would from there. -/
theorem exists_loop_of_reaches {p : Primitives E} (h : p.Cut p)
    {m t : Machine E} (reach : Reaches p m t) {n : Nat}
    (ends : Ends (loop p n t)) : ∃ k, loop p k m = loop p n t := by
  induction reach using ReflTransGen.head_induction_on with
  | refl => exact ⟨n, rfl⟩
  | head turn _ ih =>
    obtain ⟨k, hk⟩ := ih
    obtain ⟨j, hj⟩ := exists_loop_of_turn h turn (hk ▸ ends)
    exact ⟨j, hj.trans hk⟩

/-- A loop that fails has taken the turns that lie before it, also if it has
fewer words within reach. -/
theorem loop_failed_of_reaches {p q : Primitives E} (less : p.Cut q)
    (h : q.Cut q) {m t u : Machine E} (reach : Reaches q m t) {n : Nat}
    {f : Fault} (failed : loop p n m = .error (.failed f) u) :
    ∃ k, loop p k t = .error (.failed f) u := by
  induction reach using ReflTransGen.head_induction_on generalizing n with
  | refl => exact ⟨n, failed⟩
  | @head m v turn _ ih =>
    obtain ⟨j, c, hc, hstep⟩ := turn
    cases n with
    | zero => cases failed
    | succ n =>
      have turned := step_eq_of_ends h (Nat.le_max_left j n)
        (by rw [hstep]; exact ends_ok () v)
      rw [loop_of_some p n hc] at failed
      cases taken : step (execute p n) c m with
      | ok a w =>
        have same := step_eq_of_ends less (Nat.le_max_right j n)
          (by rw [taken]; exact ends_ok a w)
        rw [turned, hstep, taken] at same
        cases same
        rw [taken] at failed
        exact ih failed
      | error e w =>
        rw [taken] at failed
        cases failed
        have same := step_eq_of_ends less (Nat.le_max_right j n)
          (by rw [taken]; exact ends_failed f u)
        rw [turned, hstep, taken] at same
        cases same

/-- The loop fails where a turn fails. -/
theorem exists_loop_of_fails {p : Primitives E} {m t : Machine E}
    {f : Fault} (fails : Fails p m f t) :
    ∃ k, loop p k m = .error (.failed f) t := by
  obtain ⟨n, c, hc, hstep⟩ := fails
  exact ⟨n + 1, by rw [loop_of_some p n hc, hstep]⟩

/-- A loop that is over has taken finitely many turns, up to a machine in
which no thread is running. -/
theorem reaches_of_loop {p : Primitives E} {n : Nat} {m t : Machine E}
    (done : loop p n m = .ok () t) : Reaches p m t ∧ t.cursor = none := by
  induction n generalizing m with
  | zero => cases done
  | succ n ih =>
    cases hc : m.cursor with
    | none =>
      rw [loop_of_none p n hc] at done
      cases done
      exact ⟨.refl, hc⟩
    | some c =>
      rw [loop_of_some p n hc] at done
      cases hstep : step (execute p n) c m with
      | error e u =>
        rw [hstep] at done
        cases done
      | ok a u =>
        rw [hstep] at done
        obtain ⟨reach, halted⟩ := ih done
        exact ⟨.head ⟨n, c, hc, hstep⟩ reach, halted⟩

/-! ## Tokens of the outer interpreter -/

/-- A token is read and processed without a fault. -/
def Consumes (p : Primitives E) (m t : Machine E) : Prop :=
  ∃ n token read, m.finished = false ∧
    m.nextToken = (some token, read) ∧ processToken p n token read = .ok () t

/-- Processing a value with a smaller allowance is a cut. -/
theorem processValue_cut {p q : Primitives E} (h : p.Cut q) (v : Value)
    {n k : Nat} (hk : n ≤ k) :
    Cut (processValue p n v) (processValue q k v) := by
  intro m
  unfold processValue
  split
  · split
    · exact execute_cut h _ hk m
    · exact .inr rfl
  · exact .inr rfl

/-- Processing a token with a smaller allowance is a cut. -/
theorem processToken_cut {p q : Primitives E} (h : p.Cut q) (t : Token)
    {n k : Nat} (hk : n ≤ k) :
    Cut (processToken p n t) (processToken q k t) :=
  fun m => processValue_cut h _ hk m

/-- Interpreting with a smaller allowance is a cut. -/
theorem interpret_cut {p q : Primitives E} (h : p.Cut q) (policy : OnError)
    (n : Nat) :
    ∀ k, n ≤ k → Cut (interpret p policy n) (interpret q policy k) := by
  induction n with
  | zero => exact fun _ _ => Cut.starve _
  | succ n ih =>
    intro k hk m
    obtain ⟨k, rfl⟩ : ∃ j, k = j + 1 := ⟨k - 1, by omega⟩
    have rest := ih k (by omega)
    rw [interpret, interpret]
    dsimp only
    split
    · exact .inr rfl
    · split
      · exact .inr rfl
      · next t read _ =>
        rcases processToken_cut h t (show n ≤ k by omega) read with
          ⟨after, hstarved⟩ | hsame
        · exact .inl ⟨after, by rw [hstarved]⟩
        · rw [hsame]
          split
          · exact rest _
          · exact .inr rfl
          · split
            · exact rest _
            · exact .inr rfl

/-- Executing a word again and again with a smaller allowance is a cut. -/
theorem bootFrom_cut {p q : Primitives E} (h : p.Cut q) (policy : OnError)
    (init : Handle) (n : Nat) :
    ∀ k, n ≤ k → Cut (bootFrom p policy init n) (bootFrom q policy init k) := by
  induction n with
  | zero => exact fun _ _ => Cut.starve _
  | succ n ih =>
    intro k hk m
    obtain ⟨k, rfl⟩ : ∃ j, k = j + 1 := ⟨k - 1, by omega⟩
    have rest := ih k (by omega)
    rw [bootFrom, bootFrom]
    dsimp only
    split
    · exact .inr rfl
    · rcases execute_cut h init (show n ≤ k by omega) m with
        ⟨after, hstarved⟩ | hsame
      · exact .inl ⟨after, by rw [hstarved]⟩
      · rw [hsame]
        split
        · exact .inr rfl
        · exact .inr rfl
        · split
          · exact rest _
          · exact .inr rfl

/-- Booting with a smaller allowance is a cut. -/
theorem boot_cut {p q : Primitives E} (h : p.Cut q) (policy : OnError)
    {n k : Nat} (hk : n ≤ k) : Cut (boot p policy n) (boot q policy k) :=
  Cut.bind fun init => bootFrom_cut h policy init n k hk

/-- Running a text with a smaller allowance is a cut. -/
theorem processSource_cut {p q : Primitives E} (h : p.Cut q) {n k : Nat}
    (hk : n ≤ k) (path text : String) :
    Cut (processSource p n path text) (processSource q k path text) := by
  intro m
  unfold processSource reading
  rcases interpret_cut h .stop n k hk { m with input := .ofText path text }
    with ⟨after, hstarved⟩ | hsame
  · exact .inl ⟨after, by rw [hstarved]⟩
  · exact .inr (by rw [hsame])

/-- Interpreting goes on after a token as it would from there. -/
theorem exists_interpret_of_consumes {p : Primitives E} (h : p.Cut p)
    (policy : OnError) {m t : Machine E}
    (consumed : ReflTransGen (Consumes p) m t) {n : Nat}
    (ends : Ends (interpret p policy n t)) :
    ∃ k, interpret p policy k m = interpret p policy n t := by
  induction consumed using ReflTransGen.head_induction_on with
  | refl => exact ⟨n, rfl⟩
  | @head m u consumes _ ih =>
    obtain ⟨k, hk⟩ := ih
    obtain ⟨j, token, read, unfinished, hread, hprocess⟩ := consumes
    refine ⟨max j k + 1, ?_⟩
    have processed := (processToken_cut h token
      (Nat.le_max_left j k)).eq_of_ends
      (by rw [hprocess]; exact ends_ok () u)
    have rest := (interpret_cut h policy k _
      (Nat.le_max_right j k)).eq_of_ends (hk ▸ ends)
    rw [interpret]
    simp only [unfinished, hread, processed, hprocess]
    exact rest.trans hk

end Machine

end Forth
