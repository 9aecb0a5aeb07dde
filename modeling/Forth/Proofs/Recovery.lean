import Forth.Proofs.Moments
import Forth.Proofs.Stocked

/-!
# Every way out of a text leads to the top level

A machine at top level runs no thread, has no word at work and has the bottom
of the return stack as its base (`AtTop`).  These are saved where a word is
executed or a run is started, and put back on three ways out: at the end, on
`bye` and on a failure.

Interpreting a text comes to its end in one of two ways (`interpret_stops`).
Either all tokens were processed, and each of them has put back what it found
(`processToken_restored`).  Or the attempt at one token has failed, and what
the machine then gives up is the control state and the return stack only: the
stacks of values, the words and the output are those that the failing step
left (`Origin`, `Abandoned`).

Main statement: `processSource_leaves_top`.
-/

namespace Forth

namespace Machine

open Relation

variable {E : Embedding}

/-- Nothing is running. -/
structure AtTop (m : Machine E) : Prop where
  cursor : m.cursor = none
  executing : m.executing = none
  base : m.base = 0

theorem AtTop.of_restored {m t : Machine E} (h : AtTop m)
    (restored : Restored m t) : AtTop t where
  cursor := restored.idle h.cursor
  executing := restored.executing.trans h.executing
  base := restored.base.trans h.base

/-! ## Tokens -/

theorem nextToken_restored (m : Machine .none) :
    Restored m m.nextToken.2 :=
  (keeper_restored m).touches (touches_nextToken m) (.refl m)

/-- A token puts control back where it found it. -/
theorem processToken_restored {n : Nat} {token : Token} {m : Machine .none}
    (ends : Ends (processToken Primitives.pure n token m)) :
    Restored m (leftBy (processToken Primitives.pure n token m)) := by
  rcases executes_or_inert m (m.dictionary.translate token.text) with
    ⟨w, meant, runs⟩ | inert
  · rw [processToken_of_word meant runs] at ends ⊢
    exact execute_restored ends
  · exact (keeper_restored m).inert inert n (.refl m)

theorem Consumes.restored {m t : Machine .none}
    (h : Consumes Primitives.pure m t) : Restored m t := by
  obtain ⟨n, token, u, _, read, done⟩ := h
  have reads := nextToken_restored m
  rw [read] at reads
  have processes : Restored u t := by
    have restored := processToken_restored (done ▸ ends_ok () t)
    rw [done] at restored
    exact restored
  exact reads.trans processes

/-- So do any number of them. -/
theorem consumed_restored {m t : Machine .none}
    (h : ReflTransGen (Consumes Primitives.pure) m t) : Restored m t := by
  induction h with
  | refl => exact .refl m
  | tail _ consumes ih => exact ih.trans consumes.restored

/-! ## The end of a text -/

/-- How interpreting comes to its end: with no token left or the machine told
to stop, or with an attempt that fails. -/
def Stops (m : Machine .none) :
    EStateM.Result (Halt Report) (Machine .none) Unit → Prop
  | .ok () t => ∃ x, ReflTransGen (Consumes Primitives.pure) m x ∧
      (t = x ∨ x.nextToken = (none, t))
  | .error (.failed report) t => ∃ x f y,
      ReflTransGen (Consumes Primitives.pure) m x ∧
      Outer.rule.Breaks x f y ∧ y.recover f = (report, t)
  | .error .starved _ => True

theorem Stops.of_consumes {m u : Machine .none}
    {r : EStateM.Result (Halt Report) (Machine .none) Unit}
    (consumes : Consumes Primitives.pure m u) (h : Stops u r) :
    Stops m r := by
  unfold Stops at h ⊢
  split at h
  · obtain ⟨x, consumed, rest⟩ := h
    exact ⟨x, .head consumes consumed, rest⟩
  · obtain ⟨x, f, y, consumed, rest⟩ := h
    exact ⟨x, f, y, .head consumes consumed, rest⟩
  · exact trivial

theorem interpret_stops (n : Nat) (m : Machine .none) :
    Stops m (interpret Primitives.pure .stop n m) := by
  induction n generalizing m with
  | zero => exact trivial
  | succ n ih =>
    rw [interpret]
    dsimp only
    split
    · exact ⟨m, .refl, .inl rfl⟩
    · next going =>
      replace going : m.finished = false := Bool.eq_false_iff.2 going
      split
      · next t read => exact ⟨m, .refl, .inr read⟩
      · next token u read =>
        cases processed : processToken Primitives.pure n token u with
        | ok a t =>
          exact (ih t).of_consumes ⟨n, token, u, going, read, processed⟩
        | error e t =>
          rcases processToken_halts going read processed with
            ⟨f, rfl, breaks⟩ | ⟨rfl, _⟩
          · exact ⟨m, f, t, .refl, breaks, rfl⟩
          · exact trivial

/-! ## Failures -/

/-- While a text is interpreted, a step fails by itself and leaves a machine:
a step in the execution of a word, or the compilation of a token. -/
inductive Origin (m : Machine .none) (f : Fault) (z : Machine .none) : Prop
  | word {x u : Machine .none} {w : Handle}
      (consumed : ReflTransGen (Consumes Primitives.pure) m x)
      (executes : Outer.rule.Executes x u w) (faults : Faults u w f z) :
      Origin m f z
  | token {x u : Machine .none} {token : Token}
      (consumed : ReflTransGen (Consumes Primitives.pure) m x)
      (going : x.finished = false) (read : x.nextToken = (some token, u))
      (inert : Inert u (u.dictionary.translate token.text))
      (failed : processToken Primitives.pure 0 token u =
        .error (.failed f) z) : Origin m f z

/-- A run has been given up: control has gone back to the top level, and all
else is what the failing step left. -/
structure Abandoned (z t : Machine E) : Prop extends AtTop t where
  returns : t.returns.items = []
  interpreting : t.interpreting = true
  blame : t.blame = none
  data : t.data = z.data
  memory : t.memory = z.memory
  dictionary : t.dictionary = z.dictionary
  builtins : t.builtins = z.builtins
  underConstruction : t.underConstruction = z.underConstruction
  output : t.output = z.output

/-- Recovery gives up nothing but control and the return stack. -/
theorem Unwound.abandoned {z y : Machine E} (h : Unwound z y) (f : Fault) :
    Abandoned z (y.recover f).2 := by
  obtain ⟨cursor, base, executing, blame, rfl⟩ := h
  unfold recover
  dsimp only
  rw [record_eq]
  exact ⟨⟨rfl, rfl, rfl⟩, rfl, rfl, rfl, rfl, rfl, rfl, rfl, rfl, rfl⟩

/-- An attempt that fails has an origin. -/
theorem exists_origin {m x y : Machine .none} {f : Fault}
    (consumed : ReflTransGen (Consumes Primitives.pure) m x)
    (breaks : Outer.rule.Breaks x f y) :
    ∃ z, Origin m f z ∧ Unwound z y := by
  cases breaks with
  | executing executes failed =>
    obtain ⟨z, faults, unwound⟩ := execute_halts failed
    exact ⟨z, .word consumed executes faults, unwound⟩
  | compiling going read inert failed =>
    exact ⟨y, .token consumed going read inert failed, .refl y⟩

/-! ## Texts -/

/-- The fault that a text has failed with. -/
def faultOf : EStateM.Result (Halt Report) (Machine E) Unit → Option Fault
  | .error (.failed report) _ => some report.fault
  | _ => none

theorem exists_report {r : EStateM.Result (Halt Report) (Machine E) Unit}
    {f : Fault} (h : faultOf r = some f) :
    ∃ report, r = .error (.failed report) (leftBy r) ∧ report.fault = f := by
  unfold faultOf at h
  split at h
  · next report t =>
    cases h
    exact ⟨report, rfl, rfl⟩
  · cases h

/-- **Every way out of a text leads to the top level.**  Let a machine at top
level run a text.  When that has ended, well or not, it is at top level again
and has its input back.  If it has failed, the return stack is empty, the
machine is interpreting and blames nobody, and there is a step that failed
with the reported fault such that data stack, variables, words, the word under
construction and output are exactly what that step left. -/
theorem processSource_leaves_top {m : Machine .none} (top : AtTop m)
    (n : Nat) (path text : String) :
    (∀ t, processSource Primitives.pure n path text m = .ok () t →
      AtTop t ∧ t.input = m.input) ∧
    ∀ report t,
      processSource Primitives.pure n path text m =
        .error (.failed report) t →
      t.input = m.input ∧
      ∃ z, Origin { m with input := .ofText path text } report.fault z ∧
        Abandoned z t := by
  have stops := interpret_stops n { m with input := .ofText path text }
  have given : AtTop { m with input := .ofText path text } :=
    ⟨top.cursor, top.executing, top.base⟩
  unfold processSource reading
  generalize interpret Primitives.pure .stop n
    { m with input := .ofText path text } = r at stops
  constructor
  · intro t done
    split at done
    · next u =>
      cases done
      obtain ⟨x, consumed, last⟩ := stops
      have atX := given.of_restored (consumed_restored consumed)
      have atU : AtTop u := by
        rcases last with rfl | read
        · exact atX
        · have reads := nextToken_restored x
          rw [read] at reads
          exact atX.of_restored reads
      exact ⟨⟨atU.cursor, atU.executing, atU.base⟩, rfl⟩
    · cases done
    · cases done
  · intro report t failed
    split at failed
    · cases failed
    · next u =>
      cases failed
      obtain ⟨x, f, y, consumed, breaks, recovered⟩ := stops
      obtain ⟨z, origin, unwound⟩ := exists_origin consumed breaks
      have left := unwound.abandoned f
      have fault : report.fault = f := by
        cases recovered
        rfl
      rw [recovered] at left
      rw [fault]
      exact ⟨rfl, z, origin, { left with
        cursor := left.cursor
        executing := left.executing
        base := left.base }⟩
    · cases failed

/-- A word that fails with a value parked and a call on the return stack. -/
def failedDeep : EStateM.Result (Halt Report) (Machine .none) Unit :=
  processSource Primitives.pure 200 "" ": g 5 >r drop drop ; : f 1 g 2 ; f"
    origin

/-- The machine finds its way back from there. -/
theorem failure_leaves_top :
    faultOf failedDeep = some (.underflow .data) ∧
    (leftBy failedDeep).data.depth = 0 ∧
    AtTop (leftBy failedDeep) ∧ (leftBy failedDeep).returns.items = [] := by
  have facts : faultOf failedDeep = some (.underflow .data) ∧
      (leftBy failedDeep).data.depth = 0 ∧ origin.cursor = none ∧
      origin.executing = none ∧ origin.base = 0 := by decide +kernel
  obtain ⟨fault, depth, cursor, executing, base⟩ := facts
  refine ⟨fault, depth, ?_⟩
  obtain ⟨report, failed, _⟩ := exists_report fault
  obtain ⟨_, left⟩ := processSource_leaves_top ⟨cursor, executing, base⟩ 200 ""
    ": g 5 >r drop drop ; : f 1 g 2 ; f"
  obtain ⟨_, z, _, abandoned⟩ := left report _ failed
  exact ⟨abandoned.toAtTop, abandoned.returns⟩

end Machine

end Forth
