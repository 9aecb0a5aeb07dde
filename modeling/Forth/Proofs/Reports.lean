import Forth.Proofs.Blaming
import Forth.Proofs.CallChain
import Forth.Proofs.Effects

/-!
# A report blames the chain that was running

A text that fails with the failure of a native word has come to a moment in
which this word failed by itself (`exists_failsIn`): no failure of this kind
comes from compiling, from reading or from a thread that can not return.  At
that moment the word was at work and nobody had been blamed before, so that
the report has the callers of that moment, its running thread and the word.

What the indices in a report point at is said by `Sited`: at the cells that
were fetched last.

Main statement: `failure_blames_chain`.
-/

namespace Forth.Machine

open Relation

variable {E : Embedding}

/-! ## The moment of a failure -/

/-- The stack words leave the running thread alone. -/
theorem stack_keeps_cursor (c : Option Cursor) (w : StackWord) :
    Keeps (fun m : Machine E => m.cursor = c) w.act := by
  have touches {α : Type} {x : Act E α}
      (h : ∀ m, Touches m (leftBy (x m))) :
      Keeps (fun m : Machine E => m.cursor = c) x :=
    fun m same => (h m).sameControl.cursor.trans same
  have push (v : Value) : Keeps (fun m : Machine E => m.cursor = c)
      (Act.push v) := fun _ h => h
  have pop := touches (x := Act.pop) Act.touches_pop
  have takeParked : Keeps (fun m : Machine E => m.cursor = c)
      StackWord.takeParked := by
    intro m h
    cases taken : StackWord.takeParked m with
    | ok v t =>
      obtain ⟨_, same⟩ := takeParked_ok taken
      show t.cursor = c
      rw [same]
      exact h
    | error f t =>
      obtain ⟨_, same⟩ := takeParked_error taken
      show t.cursor = c
      rw [same]
      exact h
  by_cases quiet : (Builtin.stack w).isQuiet = true
  · exact touches (touches_stack quiet)
  · cases w with
    | maxDepth => exact fun m => push _ m
    | toReturn => exact pop.bind fun _ _ h => h
    | fromReturn => exact takeParked.bind push
    | dropReturn =>
      exact takeParked.bind fun v => (push v).bind fun _ =>
        pop.bind fun _ => .pure _
    | _ => exact absurd rfl quiet

/-- A branch has moved past its operand. -/
structure PastOperand (m z : Machine E) : Prop where
  dictionary : z.dictionary = m.dictionary
  moved : ∃ c cell, m.cursor = some c ∧
    (m.dictionary.cells c.word)[c.index]? = some cell ∧
    z.cursor = some ⟨c.word, c.index + 1⟩

theorem fetchOffset_failed {m z : Machine E} {f : Fault}
    (failed : ThreadWord.fetchOffset m = .error f z) :
    z = m ∨ PastOperand m z := by
  rw [ThreadWord.fetchOffset, Act.bind_apply, Act.fetchOperand_apply] at failed
  split at failed
  · next cell u fetched =>
    split at fetched
    · cases fetched
    · next c running =>
      split at fetched
      · cases fetched
      · next cell' c' found =>
        cases fetched
        unfold Cursor.fetch at found
        split at found
        · next cell'' present =>
          cases found
          split at failed
          · cases failed
          · cases failed
            exact .inr ⟨rfl, c, _, running, present, rfl⟩
        · cases found
  · next u fetched =>
    cases failed
    split at fetched
    · cases fetched
      exact .inl rfl
    · split at fetched
      · cases fetched
        exact .inl rfl
      · cases fetched

theorem jump_ne_failed {m z : Machine E} {offset : Int64}
    {name message : String} :
    Act.jump offset m ≠ .error (.failed name message) z := by
  intro failed
  rw [Act.jump_apply] at failed
  split at failed
  · cases failed
  · split at failed
    · next jumped =>
      cases failed
      unfold Cursor.jump at jumped
      split at jumped
      · cases jumped
      · cases jumped
    · cases failed

/-- A native word that fails leaves the running thread where it is, branches
apart, which have read their operand. -/
theorem act_failed_cursor {b : Builtin} {m z : Machine .none}
    {name message : String}
    (failed : b.act (fun _ => starve) m =
      .error (.failed (.failed name message)) z) :
    z.cursor = m.cursor ∨
      (b = .thread .branch ∨ b = .thread .zeroBranch) ∧ PastOperand m z := by
  have inner {x : Act .none Unit} (h : x.run m =
      .error (.failed (.failed name message)) z) :
      x m = .error (.failed name message) z := by
    rw [Act.run_apply] at h
    split at h
    · cases h
    · next halted =>
      cases h
      exact halted
  by_cases quiet : b.isQuiet = true
  · have touches := b.touches_act (fun _ => starve) quiet m
    rw [failed] at touches
    exact .inl touches.sameControl.cursor
  · cases b with
    | stack w =>
      have kept := stack_keeps_cursor m.cursor w m rfl
      rw [inner (x := w.act) failed] at kept
      exact .inl kept
    | thread w =>
      cases w with
      | lit | tick =>
        have halted := inner (x := ThreadWord.pushOperand) failed
        rw [ThreadWord.pushOperand, Act.bind_apply,
          Act.fetchOperand_apply] at halted
        split at halted
        · cases halted
        · next fetched =>
          cases halted
          split at fetched
          · cases fetched
          · split at fetched
            · cases fetched
              exact .inl rfl
            · cases fetched
      | branch =>
        have halted := inner (x := ThreadWord.jumpAlways) failed
        rw [ThreadWord.jumpAlways, Act.bind_apply] at halted
        split at halted
        · exact absurd halted jump_ne_failed
        · next f u halts =>
          cases halted
          rcases fetchOffset_failed halts with rfl | past
          · exact .inl rfl
          · exact .inr ⟨.inl rfl, past⟩
      | zeroBranch =>
        have halted := inner (x := ThreadWord.jumpUnless) failed
        rw [ThreadWord.jumpUnless, Act.bind_apply, Act.popTruth,
          Act.bind_apply, Act.pop_apply] at halted
        cases popped : m.data.pop? with
        | none =>
          rw [popped] at halted
          cases halted
        | some top =>
          obtain ⟨v, data⟩ := top
          rw [popped] at halted
          replace halted : (ThreadWord.fetchOffset >>= fun offset =>
            if v.isTruthy = true then (return : Act .none Unit)
            else Act.jump offset) { m with data := data } =
              .error (.failed name message) z := halted
          rw [Act.bind_apply] at halted
          split at halted
          · split at halted
            · cases halted
            · exact absurd halted jump_ne_failed
          · next f u halts =>
            cases halted
            rcases fetchOffset_failed halts with rfl | past
            · exact .inl rfl
            · exact .inr ⟨.inr rfl, past.dictionary, past.moved⟩
      | exit =>
        have halted := inner (x := Act.exitThread) failed
        exact absurd rfl (Act.exitThread_ne_failed halted name message)
      | exec =>
        replace failed : ThreadWord.act (fun _ => starve) .exec m =
          .error (.failed (.failed name message)) z := failed
        rw [ThreadWord.exec_apply] at failed
        split at failed
        · cases failed
        · cases failed
        · cases failed
      | bye => cases failed
    | _ => exact absurd rfl quiet

/-- A native word stays at work until it is done, or executes another. -/
theorem act_occupied {v : Handle} {m : Machine .none} (h : Occupied v m)
    (b : Builtin) : Occupied v (leftBy (b.act (fun _ => starve) m)) := by
  refine (keeper_occupied v).alone (fun u h => ?_) (fun u h => ?_) b m h
  · rw [Act.exitThread_apply]
    split
    · exact h
    · split
      · exact ⟨h.stocked.of_same rfl rfl rfl, h.executing⟩
      · split
        · exact h
        · exact ⟨h.stocked.of_same rfl rfl rfl, h.executing⟩
        · exact ⟨h.stocked.of_same rfl rfl rfl, h.executing⟩
  · exact ⟨h.stocked.of_same rfl rfl rfl, h.executing⟩

/-- A native word that fails by itself while another is executed: the machine
that it fails in, and that nobody has been blamed before. -/
structure FailsIn (m : Machine .none) (w : Handle) (name message : String)
    (u : Machine .none) (v : Handle) (b : Builtin) (z : Machine .none) :
    Prop where
  comes : Comes m w u v
  body : u.dictionary.body v = .builtin b
  acted : b.act (fun _ => starve) (u.working v) =
    .error (.failed (.failed name message)) z
  blames : v.name = name
  executing : z.executing = some v
  blameless : z.blame = none

/-- Every failure of a native word has one that fails by itself. -/
theorem exists_failsIn {m z : Machine .none} {w : Handle}
    {name message : String} (stocked : Stocked m)
    (blameless : m.forgetBlame.blame = none)
    (faults : Faults m w (.failed name message) z) :
    ∃ u v b, FailsIn m w name message u v b z := by
  cases faults with
  | stuck visits running atEnd left =>
    exact absurd rfl (Act.exitThread_ne_failed left name message)
  | @native u v b comes body acted =>
    have atWork : Occupied v (u.working v) := by
      constructor
      · unfold working
        rw [forgetBlame_eq]
        exact (stocked.of_grows comes.grows).of_same rfl rfl rfl
      · rfl
    have stays := act_occupied atWork b
    have kept := (keeper_blame none).alone (exitThread_blame none)
      (fun _ h => h) b (u.working v) (comes.blameless blameless)
    rw [acted] at stays kept
    have named := b.blames atWork acted name message rfl
    exact ⟨u, v, b, comes, body, acted, named.symm, stays.executing, kept⟩

/-- Who was running, from the oldest caller to the word at work.  A thread is
shown with the index of the cell before its cursor. -/
theorem callTrace_eq (m : Machine E) :
    m.callTrace =
      (m.callers.reverse ++ m.cursor.toList).map
          (fun c => ⟨c.word.name, m.dictionary.locationOf c.word,
            some (c.index - 1)⟩) ++
        m.executing.toList.map fun w =>
          ⟨w.name, m.dictionary.locationOf w, none⟩ := by
  unfold callTrace callers Stack.toList
  dsimp only
  rw [List.filterMap_reverse, List.map_append, List.map_reverse,
    List.map_filterMap]
  congr 4
  funext f
  cases f <;> rfl

/-- Where the cell lies that was fetched last in the running thread, with a
word at work: before the cursor.  It calls the word; or the word is a branch,
and the cell is its operand, after the one that calls the branch. -/
inductive FetchedLast (d : Dictionary E) (v : Handle) (c : Cursor) : Prop
  | call (called : CalledFrom d c v)
  | operand (branch : d.body v = .builtin (.thread .branch) ∨
        d.body v = .builtin (.thread .zeroBranch))
      (positive : 1 ≤ c.index) (called : CalledFrom d ⟨c.word, c.index - 1⟩ v)
      (inside : ∃ cell, (d.cells c.word)[c.index - 1]? = some cell)

/-- Where the words that were running stood when one of them failed: the cell
before a cursor was fetched last.  Of callers that were on the return stack
before any of them ran, nothing is said. -/
structure Sited (old : List Frame) (v : Handle) (z : Machine E) : Prop where
  callers : ∀ c ∈ z.callers, .call c ∈ old ∨ Calling z.dictionary c
  running : ∀ c, z.cursor = some c → FetchedLast z.dictionary v c

section FailsIn

variable {m u z : Machine .none} {w v : Handle} {name message : String}
  {b : Builtin} {old : List Frame}

theorem FailsIn.extends (fails : FailsIn m w name message u v b z) :
    u.dictionary.Extends z.dictionary := by
  have works : Grows u (u.working v) :=
    (grows_forgetBlame u).tail (.control _ _ _ _ _ _ _ _)
  have grows : Growing (b.act fun _ => starve : Run .none Unit) :=
    Growing.act (fun _ _ => .refl) b
  have acts := grows (u.working v)
  rw [fails.acted] at acts
  exact Grows.extends (works.trans acts)

theorem FailsIn.cursor (fails : FailsIn m w name message u v b z) :
    z.cursor = u.cursor ∨
      (b = .thread .branch ∨ b = .thread .zeroBranch) ∧ PastOperand u z := by
  have same : (u.working v).cursor = u.cursor ∧
      (u.working v).dictionary = u.dictionary := by
    unfold working
    rw [forgetBlame_eq]
    exact ⟨rfl, rfl⟩
  obtain ⟨cursor, dictionary⟩ := same
  rcases act_failed_cursor fails.acted with stays | ⟨branch, past, moved⟩
  · exact .inl (stays.trans cursor)
  · rw [cursor, dictionary] at moved
    exact .inr ⟨branch, past.trans dictionary, moved⟩

theorem FailsIn.sited (fails : FailsIn m w name message u v b z)
    (ready : Ready old m w) : Sited old v z := by
  have readyU := fails.comes.ready ready
  have intact : IntactBut old z :=
    Faults.intactBut (.native fails.comes fails.body fails.acted) ready
  constructor
  · intro c caller
    have call : Frame.call c ∈ z.returns.items := by
      obtain ⟨f, frame, same⟩ := List.mem_filterMap.mp caller
      cases f with
      | call d =>
        cases same
        exact frame
      | value x => cases same
    exact intact.calls c call
  · intro c running
    rcases fails.cursor with stays | ⟨branch, past⟩
    · have called : CalledFrom u.dictionary c v :=
        readyU.behind c (stays.symm.trans running)
      exact .call (called.extend fails.extends)
    · obtain ⟨dictionary, d, cell, before, present, moved⟩ := past
      have same := Option.some.inj (moved.symm.trans running)
      subst same
      have called : CalledFrom u.dictionary d v := readyU.behind d before
      rw [← dictionary] at called present
      refine .operand ?_ (Nat.le_add_left 1 _) called ⟨cell, present⟩
      rw [dictionary, fails.body]
      rcases branch with rfl | rfl
      · exact .inl rfl
      · exact .inr rfl

theorem FailsIn.chained (fails : FailsIn m w name message u v b z)
    (ready : Ready old m w) (chained : Chained m)
    (fresh : m.cursor = none → m.callers = []) : Chained z := by
  have before := fails.comes.chained ready chained fresh
  have working : Chained (u.working v) := by
    unfold Machine.working
    rw [forgetBlame_eq]
    exact before.of_same rfl rfl rfl
  have kept := keeper_chained.alone exitThread_chained finish_chained b
    (u.working v) working
  rw [fails.acted] at kept
  exact kept

end FailsIn

/-! ## Texts -/

/-- What is not executed is compiled or pushed, and that is no word's
failure. -/
theorem processToken_ne_failed {m t : Machine .none} {token : Token} {n : Nat}
    (stocked : Stocked m)
    (inert : Inert m (m.dictionary.translate token.text))
    {name message : String} :
    processToken Primitives.pure n token m ≠
      .error (.failed (.failed name message)) t := by
  have compiled (c : Cell) :
      Act.compile c m = .error .nothingDefined m ∨
        ∃ u, Act.compile c m = .ok () u := by
    cases under : m.underConstruction with
    | none =>
      rw [Act.compile_apply, under]
      exact .inl rfl
    | some u => exact .inr ⟨_, compile_of_under stocked under c⟩
  intro failed
  by_cases isWord : (m.dictionary.translate token.text).isWord = true
  · obtain ⟨w, meant⟩ := exists_word_of_isWord isWord
    unfold processToken processValue at failed
    rw [meant] at failed
    dsimp only at failed
    rw [if_neg (inert w meant), Act.run_apply] at failed
    rcases compiled (.word w) with halted | ⟨u, done⟩
    · rw [halted] at failed
      cases failed
    · rw [done] at failed
      cases failed
  · replace failed : processValue Primitives.pure n
      (m.dictionary.translate token.text) m = _ := failed
    rw [processValue_of_not_word _ _ (by simpa using isWord)] at failed
    split at failed
    · cases failed
    · rw [Act.run_apply] at failed
      cases under : m.underConstruction with
      | none =>
        have lit : m.builtins.find? "lit" = some (handleOf (.thread .lit)) :=
          stocked.builtin (.thread .lit)
        rw [Act.bind_apply, Act.builtin_apply, lit] at failed
        dsimp only at failed
        rw [Act.bind_apply, Act.compile_apply, under] at failed
        cases failed
      | some u =>
        rw [compileLiteral_of_under stocked under] at failed
        cases failed

theorem consumed_grows {m t : Machine .none}
    (consumed : ReflTransGen (Consumes Primitives.pure) m t) : Grows m t := by
  induction consumed with
  | refl => exact .refl
  | @tail x t _ consumes ih =>
    obtain ⟨n, token, u, _, read, done⟩ := consumes
    have reads := (touches_nextToken x).grows
    have processes := processToken_grows n token u
    rw [read] at reads
    rw [done] at processes
    exact (ih.trans reads).trans processes

theorem consumed_intactBut {old : List Frame} {m t : Machine .none}
    (consumed : ReflTransGen (Consumes Primitives.pure) m t)
    (h : IntactBut old m) (idle : m.cursor = none) : IntactBut old t := by
  induction consumed with
  | refl => exact h
  | tail before consumes ih =>
    exact consumes.intactBut ih ((consumed_restored before).idle idle)

theorem Outer.Executes.intactBut {old : List Frame} {m u : Machine .none}
    {w : Handle} (executes : Outer.rule.Executes m u w)
    (h : IntactBut old m) : IntactBut old u := by
  cases executes with
  | token _ read _ _ => exact h.read read

/-- The execution of a word at the top level. -/
theorem Outer.Executes.top {m u : Machine .none} {w : Handle}
    (executes : Outer.rule.Executes m u w) :
    Restored m u ∧ Grows m u := by
  cases executes with
  | token _ read _ _ =>
    have restored := nextToken_restored m
    have reads := (touches_nextToken m).grows
    rw [read] at restored reads
    exact ⟨restored, reads⟩

/-- **A report blames the chain that was running.**  Let a machine with
nothing running run a text, and let the report be about the failure of a
native word.  Then some token of the text executes a word, and while that is
executed, a native word of the reported name fails by itself and leaves a
machine `z`.  The report has all callers on the return stack of `z`, the
oldest first, then the running thread, if there is one, each with the index of
the cell before its cursor, and then the word that failed, without an index.

The cells that the report points at are those fetched last, as far as they
have been fetched: of a call that was on the return stack before the text was
run this is known only if it was put there by calling.  And if no call lies
on the return stack when that run begins, each of these cells calls the next
word in the report, by name or through `exec`. -/
theorem failure_blames_chain {m t : Machine .none} {report : Report}
    {word message : String} {n : Nat} {path text : String} (born : Born m)
    (idle : m.cursor = none) (atRest : m.executing = none)
    (failed : processSource Primitives.pure n path text m =
      .error (.failed report) t)
    (fault : report.fault = .failed word message) :
    ∃ x u w v z,
      ReflTransGen (Consumes Primitives.pure)
        { m with input := .ofText path text } x ∧
      Outer.rule.Executes x u w ∧
      Faults u w (.failed word message) z ∧
      z.executing = some v ∧ v.name = word ∧
      report.calls = some
        ((z.callers.reverse ++ z.cursor.toList).map
            (fun c => ⟨c.word.name, z.dictionary.locationOf c.word,
              some (c.index - 1)⟩) ++
          [⟨word, z.dictionary.locationOf v, none⟩]) ∧
      Sited m.returns.items v z ∧ (Intact m → Sited [] v z) ∧
      (OnlyParked u.returns.items →
        (z.callers.reverse ++ z.cursor.toList).IsChain fun caller callee =>
          CalledFrom z.dictionary caller callee.word) := by
  have stops := interpret_stops n { m with input := .ofText path text }
  unfold processSource reading at failed
  generalize interpret Primitives.pure .stop n
    { m with input := .ofText path text } = r at stops failed
  split at failed
  · cases failed
  · next report' y =>
    cases failed
    obtain ⟨x, f, y', consumed, breaks, recovered⟩ := stops
    obtain ⟨rfl, calls⟩ : f = .failed word message ∧
        report.calls = y'.blame := by
      cases recovered
      exact ⟨fault, rfl⟩
    have stocked : Stocked x :=
      (born.stocked.of_same rfl rfl rfl :
        Stocked { m with input := .ofText path text }).of_grows
          (consumed_grows consumed)
    cases breaks with
    | compiling going read inert halted =>
      have reads := (touches_nextToken x).grows
      rw [read] at reads
      exact absurd halted
        (processToken_ne_failed (stocked.of_grows reads) inert)
    | @executing _ _ u _ w k _ executes halted =>
      obtain ⟨z, faults, blame⟩ := exists_fault halted
      obtain ⟨restored, grows⟩ := executes.top
      have first := consumed_restored consumed
      have idleU : u.cursor = none := restored.idle (first.idle idle)
      have blameless : u.forgetBlame.blame = none := by
        have nobody : u.executing = none :=
          restored.executing.trans (first.executing.trans atRest)
        unfold forgetBlame
        rw [if_pos ⟨by simp [idleU], by simp [nobody]⟩]
      obtain ⟨_, v, b, fails⟩ :=
        exists_failsIn (stocked.of_grows grows) blameless faults
      have sited {old : List Frame} (h : IntactBut old m) : Sited old v z := by
        have given : IntactBut old { m with input := .ofText path text } :=
          h.of_same rfl rfl rfl rfl
        have later := executes.intactBut (consumed_intactBut consumed given idle)
        exact fails.sited (later.ready idleU w)
      refine ⟨x, u, w, v, z, consumed, executes, faults, fails.executing,
        fails.blames, ?_, sited (.of_returns idle), fun intact => ?_,
        fun parked => ?_⟩
      · have laid : z.captureBlame.blame = some z.callTrace := by
          unfold captureBlame
          rw [if_pos (by simp [fails.blameless])]
        rw [calls, blame, laid, callTrace_eq, fails.executing]
        simp [fails.blames]
      · exact sited (intactBut_nil_iff.mpr intact)
      · have none : u.callers = [] := by
          unfold callers
          refine List.filterMap_eq_nil_iff.mpr fun f frame => ?_
          cases f with
          | call c => exact absurd frame (parked c)
          | value value => rfl
        have ready : Ready [] u w :=
          (Intact.of_nothing idleU parked).ready idleU w
        have start : Chained u := by
          unfold Chained threads
          rw [none, idleU]
          exact .nil
        have chain := fails.chained ready start fun _ => none
        unfold Chained threads at chain
        have order : z.callers.reverse ++ z.cursor.toList =
            (z.cursor.toList ++ z.callers).reverse := by
          cases z.cursor <;> simp
        rw [order, List.isChain_reverse]
        exact chain
  · cases failed

/-- A variable that has not been set is read in a word called by another. -/
def readUnset : EStateM.Result (Halt Report) (Machine .none) Unit :=
  processSource Primitives.pure 200 "" ": g \"x\" @ ; : f 1 g 2 ; f" origin

/-- The words that a result reports to have been running, with the indices of
their cells. -/
def chainOf : EStateM.Result (Halt Report) (Machine E) Unit →
    Option (List (String × Option Nat))
  | .error (.failed report) _ =>
    report.calls.map (List.map fun s => (s.word, s.index))
  | _ => none

/-- The report on it blames the word that reads, with both threads and the
cells that call `g` and `@`. -/
theorem unset_variable_blamed : ∃ report v, ∃ z : Machine .none,
    readUnset = .error (.failed report) (leftBy readUnset) ∧
    report.fault = .failed "@" "variable \"x\" has not been set" ∧
    v.name = "@" ∧
    report.calls = some
      ((z.callers.reverse ++ z.cursor.toList).map
          (fun c => ⟨c.word.name, z.dictionary.locationOf c.word,
            some (c.index - 1)⟩) ++
        [⟨"@", z.dictionary.locationOf v, none⟩]) ∧
    report.calls.map (List.map fun s => (s.word, s.index)) =
      some [("f", some 2), ("g", some 2), ("@", none)] ∧
    Sited [] v z := by
  have facts : faultOf readUnset =
      some (.failed "@" "variable \"x\" has not been set") ∧
      chainOf readUnset =
        some [("f", some 2), ("g", some 2), ("@", none)] ∧
      origin.cursor = none ∧ origin.executing = none ∧
      OnlyParked origin.returns.items := by
    decide +kernel
  obtain ⟨isFault, chain, idle, atRest, parked⟩ := facts
  obtain ⟨report, failed, fault⟩ := exists_report isFault
  rw [failed] at chain
  obtain ⟨x, u, w, v, z, _, _, _, _, named, calls, _, sited, _⟩ :=
    failure_blames_chain ⟨.unlimited, none, .refl⟩ idle atRest failed fault
  exact ⟨report, v, z, failed, fault, named, calls, chain,
    sited (.of_nothing idle parked)⟩

end Forth.Machine
