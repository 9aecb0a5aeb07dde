import Forth.Proofs.Keeping
import Forth.Proofs.Stocked

/-!
# Native words blame themselves

A failure of a native word has a name in it, and that name is the word's own
(`Builtin.blames`).  It is taken from the machine at the moment of the
failure, deep inside what the word does, so the word at work has to be the
same throughout: no built-in word changes that, `exec` apart, which hands it
on.

One failure takes its name from elsewhere: to append a cell to a native word
is blamed on that word.  This never happens, since what is under construction
is a thread (`Stocked.under`).

The proof goes through the built-in words family by family, from the services
that they are made of.
-/

namespace Forth

/-- If a fault is the failure of a native word, it names the given one. -/
def Fault.Names (f : Fault) (word : String) : Prop :=
  ∀ name message, f = .failed name message → name = word

namespace Machine

/-- A word is at work in a machine that has its stock. -/
structure Occupied (v : Handle) (m : Machine .none) : Prop where
  stocked : Stocked m
  executing : m.executing = some v

/-- A failure raised while the word is at work is named after it. -/
theorem Occupied.executingName {v : Handle} {m : Machine .none}
    (h : Occupied v m) : m.executingName = v.name := by
  unfold Machine.executingName
  rw [h.executing]

/-- Nothing that a built-in word does by itself changes which word is at work,
or takes anything from the stock. -/
theorem keeper_occupied (v : Handle) : Keeper (Occupied v) where
  touch := fun {m t} touch h => by
    have same : t.executing = m.executing := by
      cases touch <;> rfl
    exact ⟨h.stocked.of_grow (.touch touch), same.trans h.executing⟩
  park := fun _ _ h => ⟨h.stocked.of_same rfl rfl rfl, h.executing⟩
  unpark := fun m h => by
    rw [StackWord.takeParked, Act.bind_apply, Act.popFrame_apply]
    cases m.returns.pop? with
    | none => exact h
    | some top =>
      obtain ⟨f, returns⟩ := top
      cases f with
      | call c => exact ⟨h.stocked.of_same rfl rfl rfl, h.executing⟩
      | value v => exact ⟨h.stocked.of_same rfl rfl rfl, h.executing⟩
  fetch := fun m h => by
    rw [Act.fetchOperand_apply]
    split
    · exact h
    · split
      · exact h
      · exact ⟨h.stocked.of_same rfl rfl rfl, h.executing⟩
  jump := fun offset m h => by
    rw [Act.jump_apply]
    split
    · exact h
    · split
      · exact h
      · exact ⟨h.stocked.of_same rfl rfl rfl, h.executing⟩

end Machine

open Machine

/-- An action of a word keeps it at work and blames failures on it. -/
structure Act.Blames {α : Type} (v : Handle) (x : Act .none α) : Prop where
  keeps : Keeps (Occupied v) x
  names : ∀ {m t f}, Occupied v m → x m = .error f t → f.Names v.name

namespace Act.Blames

variable {α β : Type} {v : Handle}

/-! ## How actions are put together -/

/-- Doing nothing blames nobody. -/
theorem pure (a : α) : Blames v (Pure.pure a : Act .none α) where
  keeps := .pure a
  names := fun _ failed => by cases failed

/-- Failing at once, with something that is no failure of a native word. -/
theorem throw {f : Fault} (other : f.Names v.name) :
    Blames v (MonadExcept.throw f : Act .none α) where
  keeps := .throw f
  names := fun _ failed => by
    cases failed
    exact other

/-- The second action finds the word at work as the first one did, so whichever
of the two fails blames the same word. -/
theorem bind {x : Act .none α} {next : α → Act .none β}
    (first : Blames v x) (rest : ∀ a, Blames v (next a)) :
    Blames v (x >>= next) where
  keeps := first.keeps.bind fun a => (rest a).keeps
  names := by
    intro m t f h failed
    have kept := first.keeps m h
    rw [Act.bind_apply] at failed
    cases done : x m with
    | ok a u =>
      rw [done] at failed kept
      exact (rest a).names kept failed
    | error e u =>
      rw [done] at failed
      cases failed
      exact first.names h done

/-- Looking at the machine can not fail. -/
theorem get_bind {next : Machine .none → Act .none β}
    (rest : ∀ m, Blames v (next m)) : Blames v (get >>= next) where
  keeps := fun m h => (rest m).keeps m h
  names := fun {m _ _} h failed => (rest m).names h failed

/-- A step that can not fail. -/
theorem perform {step : Machine .none → α × Machine .none}
    (touches : ∀ m, Touches m (step m).2) :
    Blames v (Act.perform step) where
  keeps := fun m => (keeper_occupied v).touches (touches m)
  names := fun _ failed => by cases failed

/-! ## The services of the machine -/

/-- This is where the names come from: a complaint is filed under the word at
work. -/
theorem fail (message : String) :
    Blames v (Act.fail message : Act .none α) where
  keeps := fun _ h => h
  names := by
    intro m t f h failed
    rw [Act.fail_apply] at failed
    cases failed
    rintro name message ⟨⟩
    exact h.executingName

/-- Pushing can not fail. -/
theorem push (value : Value) : Blames v (Act.push value) where
  keeps := (keeper_occupied v).push value
  names := fun _ failed => by cases failed

/-- Popping from an empty stack is a fault of its own kind, and names no
word. -/
theorem pop : Blames v Act.pop where
  keeps := (keeper_occupied v).pop
  names := by
    intro m t f _ failed
    rw [Act.pop_apply] at failed
    split at failed
    · cases failed
      exact nofun
    · cases failed

/-- So is looking below the bottom of the stack. -/
theorem peek (n : Nat) : Blames v (Act.peek n) where
  keeps := fun m => (keeper_occupied v).touches (Act.touches_peek n m)
  names := by
    intro m t f _ failed
    rw [Act.peek_apply] at failed
    split at failed
    · cases failed
      exact nofun
    · cases failed

/-- A sink that is full is a complaint of the word that writes. -/
theorem write (text : String) : Blames v (Act.write text) where
  keeps := fun m => (keeper_occupied v).touches (Act.touches_write text m)
  names := by
    intro m t f h failed
    rw [Act.write_apply] at failed
    split at failed
    · cases failed
    · cases failed
      rintro name message ⟨⟩
      exact h.executingName

/-- At the end of the input no token is read, and that is no failure yet. -/
theorem nextToken? : Blames v Act.nextToken? :=
  perform touches_nextToken

/-- Nor is it one to find no character. -/
theorem nextChar? : Blames v Act.nextChar? :=
  perform fun m => .single (touch_withInput m _)

/-- A word can be created under any name. -/
theorem createWord (name : String) : Blames v (Act.createWord name) :=
  perform fun m => Act.touches_createWord name m

/-- Changing the mode can not fail. -/
theorem setInterpreting (b : Bool) : Blames v (Act.setInterpreting b) where
  keeps := fun m => (keeper_occupied v).touches (touches_setInterpreting m b)
  names := fun _ failed => by cases failed

/-- A variable can be set under any name. -/
theorem setVariable (name : String) (value : Value) :
    Blames v (Act.setVariable name value) where
  keeps := fun m => (keeper_occupied v).touch (.aside m _ _ _ _ _ _ _)
  names := fun _ failed => by cases failed

/-- A built-in word that is missing is a fault of the machine and names no
native word. -/
theorem builtin (name : String) : Blames v (Act.builtin name) :=
  get_bind fun m => by
    split
    · exact .throw nofun
    · exact .pure _

/-- What is under construction is no native word, so nothing is blamed on
it. -/
theorem compile (c : Cell) : Blames v (Act.compile c) where
  keeps := fun m => (keeper_occupied v).touches (Act.touches_compile c m)
  names := by
    intro m t f h failed
    cases under : m.underConstruction with
    | none =>
      rw [Act.compile_apply, under] at failed
      cases failed
      exact nofun
    | some u =>
      obtain ⟨_, w, cells, present, _, body⟩ := h.stocked.under u under
      have thread : m.dictionary.body u = .thread cells := by
        unfold Dictionary.body
        rw [present]
        exact body
      rw [Act.compile_apply, under] at failed
      dsimp only at failed
      rw [Dictionary.append_of_thread thread] at failed
      cases failed

/-- Without a word under construction this is a fault that names no word. -/
theorem markImmediate : Blames v (CompileWord.act .immediate) where
  keeps := fun m => (keeper_occupied v).touches (Act.touches_immediate m)
  names := by
    intro m t f _ failed
    rw [CompileWord.immediate_apply] at failed
    split at failed
    · cases failed
      exact nofun
    · cases failed

/-- The same holds of the announcement of a finished word. -/
theorem announce : Blames v CompileWord.announce where
  keeps := fun m => (keeper_occupied v).touches (Act.touches_announce m)
  names := by
    intro m t f _ failed
    rw [CompileWord.announce_apply] at failed
    split at failed
    · split at failed
      · cases failed
        exact nofun
      · cases failed
    · cases failed

/-- Outside of a thread, or at its end, there is no operand; both are faults of
the cursor and name no native word. -/
theorem fetchOperand : Blames v Act.fetchOperand where
  keeps := (keeper_occupied v).fetch
  names := by
    intro m t f _ failed
    rw [Act.fetchOperand_apply] at failed
    split at failed
    · cases failed
      exact nofun
    · split at failed
      · next fetched =>
        cases failed
        unfold Cursor.fetch at fetched
        split at fetched
        · cases fetched
        · cases fetched
          exact nofun
      · cases failed

/-- A branch out of its thread is a fault that names the thread, which is no
native word. -/
theorem jump (offset : Int64) : Blames v (Act.jump offset) where
  keeps := (keeper_occupied v).jump offset
  names := by
    intro m t f _ failed
    rw [Act.jump_apply] at failed
    split at failed
    · cases failed
      exact nofun
    · split at failed
      · next jumped =>
        cases failed
        unfold Cursor.jump at jumped
        split at jumped
        · cases jumped
        · cases jumped
          exact nofun
      · cases failed

/-- Neither an empty return stack nor a call on top of it is blamed on a
word. -/
theorem takeParked : Blames v StackWord.takeParked where
  keeps := (keeper_occupied v).unpark
  names := by
    intro m t f _ failed
    rw [StackWord.takeParked, Act.bind_apply, Act.popFrame_apply] at failed
    cases popped : m.returns.pop? with
    | none =>
      rw [popped] at failed
      cases failed
      intro _ _ other
      cases other
    | some top =>
      obtain ⟨frame, returns⟩ := top
      rw [popped] at failed
      cases frame with
      | value => cases failed
      | call =>
        cases failed
        intro _ _ other
        cases other

/-! ## Values of the wanted type -/

/-- A value of the wrong type is a complaint of the word that wanted another. -/
theorem expected (what : String) (value : Value) :
    Blames v (Act.expected what value : Act .none α) :=
  fail _

/-- Wanting an integer and finding something else. -/
theorem popInt : Blames v Act.popInt := by
  refine pop.bind fun value => ?_
  cases value with
  | int n => exact .pure _
  | bool b => exact .pure _
  | _ => exact .expected _ _

/-- An integer below zero is complained about as well. -/
theorem popNat : Blames v Act.popNat := by
  refine popInt.bind fun n => ?_
  split
  · exact .fail _
  · exact .pure _

/-- Every value has a truth value, so only the stack can be too short. -/
theorem popTruth : Blames v Act.popTruth :=
  pop.bind fun _ => .pure _

/-- A text or a word is wanted, whose name is then the text. -/
theorem popText : Blames v Act.popText := by
  refine pop.bind fun value => ?_
  cases value with
  | string s => exact .pure _
  | word w => exact .pure _
  | _ => exact .expected _ _

/-- A value that is no word can not be executed, which is a fault of its own
kind. -/
theorem popWord : Blames v Act.popWord := by
  refine pop.bind fun value => ?_
  cases value with
  | word w => exact .pure _
  | _ => exact .throw nofun

/-- A missing token is a fault of the input and names no word. -/
theorem nextTokenText : Blames v Act.nextTokenText := by
  refine nextToken?.bind fun token => ?_
  cases token with
  | none => exact .throw nofun
  | some t => exact .pure _

/-! ## Family by family -/

/-- An overflow and values that are no numbers are complaints. -/
theorem arithmetic (onInts : Int64 → Int64 → Option Int64)
    (onFloats : Float → Float → Float) :
    Blames v (MathWord.arithmetic onInts onFloats) := by
  refine pop.bind fun b => pop.bind fun a => ?_
  split
  · split
    · exact .push _
    · exact .fail _
  · split
    · exact .push _
    · exact .fail _

/-- A shift that is out of range is a complaint. -/
theorem bitwise (op : Int64 → Int64 → Option Int64) :
    Blames v (MathWord.bitwise op) := by
  refine popInt.bind fun b => popInt.bind fun a => ?_
  split
  · exact .push _
  · exact .fail _

/-- Values that can not be compared are a complaint. -/
theorem comparison (test : Ordering → Bool) :
    Blames v (MathWord.comparison test) := by
  refine pop.bind fun b => pop.bind fun a => ?_
  split
  · exact .push _
  · exact .fail _

/-- If one of the values is a text the two are joined, which can not fail; else
they are added. -/
theorem addition : Blames v MathWord.addition := by
  refine (peek 0).bind fun b => (peek 1).bind fun a => ?_
  split
  · exact pop.bind fun _ => pop.bind fun _ => .push _
  · exact .arithmetic _ _

/-- A division by zero is found before the other number is looked at. -/
theorem division : Blames v MathWord.division := by
  refine pop.bind fun b => ?_
  split
  · exact .fail _
  · exact (push _).bind fun _ => .arithmetic _ _

/-- A divisor of zero and a quotient that is too great are complaints. -/
theorem divisionWithRest : Blames v MathWord.divisionWithRest := by
  refine popInt.bind fun b => popInt.bind fun a => ?_
  split
  · exact .fail _
  · split
    · exact (push _).bind fun _ => .push _
    · exact .fail _

/-- Words that calculate. -/
theorem math (w : MathWord) : Blames v w.act := by
  cases w with
  | add => exact .addition
  | sub | mul => exact .arithmetic _ _
  | div => exact .division
  | divMod => exact .divisionWithRest
  | and | or => exact popTruth.bind fun _ => popTruth.bind fun _ => .push _
  | not => exact popTruth.bind fun _ => .push _
  | bitNot => exact popInt.bind fun _ => .push _
  | bitAnd => exact bitwise fun a b => some (a &&& b)
  | bitOr => exact bitwise fun a b => some (a ||| b)
  | bitXor => exact bitwise fun a b => some (a ^^^ b)
  | shiftLeft | shiftRight => exact .bitwise _
  | equal | different => exact pop.bind fun _ => pop.bind fun _ => .push _
  | less | lessEqual | greater | greaterEqual => exact .comparison _

/-- An index beyond the stack is a complaint, not a stack that is too short. -/
theorem pickValue : Blames v StackWord.pickValue := by
  refine popNat.bind fun index => get_bind fun m => ?_
  show Blames v (if m.data.depth ≤ index then _ else _)
  split
  · exact .fail _
  · exact (peek _).bind fun _ => .push _

/-- Words that move values between and within the stacks. -/
theorem stack (w : StackWord) : Blames v w.act := by
  cases w with
  | dup | second => exact (peek _).bind fun _ => .push _
  | drop => exact pop.bind fun _ => .pure _
  | swap =>
    exact pop.bind fun _ => pop.bind fun _ => (push _).bind fun _ => .push _
  | rot | unrot =>
    exact pop.bind fun _ => pop.bind fun _ => pop.bind fun _ =>
      (push _).bind fun _ => (push _).bind fun _ => .push _
  | depth | maxDepth => exact get_bind fun _ => .push _
  | pick => exact .pickValue
  | toReturn =>
    refine pop.bind fun value => ⟨(keeper_occupied v).park value, ?_⟩
    exact fun _ failed => by cases failed
  | fromReturn => exact takeParked.bind fun _ => .push _
  | dropReturn =>
    exact takeParked.bind fun _ => (push _).bind fun _ =>
      pop.bind fun _ => .pure _

/-- Words that make words. -/
theorem compiling (w : CompileWord) : Blames v w.act := by
  cases w with
  | define =>
    exact nextTokenText.bind fun _ => (createWord _).bind fun _ =>
      .setInterpreting _
  | endDefine =>
    exact (builtin "exit").bind fun _ => (compile _).bind fun _ =>
      (setInterpreting _).bind fun _ => .announce
  | create =>
    exact popText.bind fun _ => (createWord _).bind fun _ => .pure _
  | immediate => exact .markImmediate
  | comma => exact pop.bind fun _ => .compile _
  | interpretMode | compileMode => exact .setInterpreting _
  | comment =>
    exact ⟨fun m => (keeper_occupied v).touches (touches_skipComment _ m),
      fun _ failed => by cases failed⟩

/-- Words about names; a variable that has not been set is a complaint of the
word that reads it. -/
theorem naming (w : NameWord) : Blames v w.act := by
  cases w with
  | isImmediate => exact popWord.bind fun _ => get_bind fun _ => .push _
  | wordFromName =>
    exact popText.bind fun _ => get_bind fun _ =>
      (push _).bind fun _ => .push _
  | forthInterpret => exact get_bind fun _ => .push _
  | store => exact popText.bind fun _ => pop.bind fun _ => .setVariable _ _
  | fetch =>
    refine popText.bind fun name => get_bind fun m => ?_
    generalize m.memory.find? name = found
    cases found with
    | some value => exact .push value
    | none => exact .fail _

/-- An integer that is no code of a character, and a value that is neither an
integer nor a text, are complaints. -/
theorem emitValue : Blames v ConsoleWord.emitValue := by
  refine pop.bind fun value => ?_
  cases value with
  | int n =>
    dsimp only
    split
    · exact .write _
    · exact .fail _
  | string s => exact .write _
  | _ => exact .fail _

/-- A name without a word is a complaint of the word that shows definitions. -/
theorem seeNext : Blames v ConsoleWord.seeNext := by
  refine nextTokenText.bind fun name => get_bind fun m => ?_
  split
  · exact .fail _
  · exact .write _

/-- Words that read and write. -/
theorem console (w : ConsoleWord) : Blames v w.act := by
  cases w with
  | word => exact nextToken?.bind fun _ => .push _
  | key => exact nextChar?.bind fun _ => .push _
  | emit => exact .emitValue
  | print => exact pop.bind fun _ => .write _
  | printStack | words => exact get_bind fun _ => .write _
  | newline => exact .write _
  | see => exact .seeNext

/-- An operand that is no integer is a complaint of the branch it belongs to. -/
theorem fetchOffset : Blames v ThreadWord.fetchOffset := by
  refine fetchOperand.bind fun cell => ?_
  split
  · exact .pure _
  · exact .fail _

/-- The operand of a conditional branch is read whether it jumps or not. -/
theorem jumpUnless : Blames v ThreadWord.jumpUnless := by
  refine popTruth.bind fun condition => fetchOffset.bind fun offset => ?_
  split
  · exact .pure _
  · exact .jump _

end Act.Blames

/-! ## The built-in words -/

/-- A thread that can not return is no failure of a native word. -/
theorem Act.exitThread_ne_failed {E : Embedding} {m t : Machine E} {f : Fault}
    (failed : Act.exitThread m = .error f t) (name message : String) :
    f ≠ .failed name message := by
  rw [Act.exitThread_apply] at failed
  split at failed
  · cases failed
    exact nofun
  · split at failed
    · cases failed
    · split at failed
      · cases failed
        exact nofun
      · cases failed
      · cases failed
        exact nofun

/-- **A native word that fails blames itself.**  Of `exec` this is said as far
as it fails before it has a word to execute. -/
theorem Builtin.blames {v : Handle} {m t : Machine .none} {f : Fault}
    (atWork : Occupied v m) (b : Builtin)
    (failed : b.act (fun _ => starve) m = .error (.failed f) t) :
    f.Names v.name := by
  have names {x : Act .none Unit} (blames : x.Blames v)
      (failed : x.run m = .error (.failed f) t) : f.Names v.name := by
    rw [Act.run_apply] at failed
    split at failed
    · cases failed
    · next halted =>
      cases failed
      exact blames.names atWork halted
  cases b with
  | stack w => exact names (.stack w) failed
  | math w => exact names (.math w) failed
  | compile w => exact names (.compiling w) failed
  | name w => exact names (.naming w) failed
  | console w => exact names (.console w) failed
  | thread w =>
    cases w with
    | lit | tick =>
      exact names (Act.Blames.fetchOperand.bind fun _ => .push _) failed
    | branch =>
      exact names (Act.Blames.fetchOffset.bind fun _ => .jump _) failed
    | zeroBranch => exact names .jumpUnless failed
    | exit =>
      replace failed : Act.exitThread.run m = .error (.failed f) t := failed
      rw [Act.run_apply] at failed
      split at failed
      · cases failed
      · next halted =>
        cases failed
        exact fun name message same =>
          absurd same (Act.exitThread_ne_failed halted name message)
    | exec =>
      replace failed : ThreadWord.act (fun _ => starve) .exec m =
        .error (.failed f) t := failed
      rw [ThreadWord.exec_apply] at failed
      split at failed
      · cases failed
        exact nofun
      · cases failed
      · cases failed
        exact nofun
    | bye => cases failed

end Forth
