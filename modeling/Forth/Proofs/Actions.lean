import Forth.Engine

/-!
# Actions as functions of the machine

What each action makes of a machine, written out as a result.  Later modules
open actions through these equations only.
-/

namespace Forth

variable {E : Embedding} {α β : Type}

namespace Stack

/-- Nothing comes off an empty stack. -/
theorem pop?_of_nil {s : Stack α} (h : s.items = []) : s.pop? = none := by
  obtain ⟨items, depth, peak, depth_eq⟩ := s
  cases h
  rfl

/-- From any other stack the top comes off. -/
theorem pop?_of_cons {s : Stack α} {a : α} {rest : List α}
    (h : s.items = a :: rest) :
    ∃ t, s.pop? = some (a, t) ∧ t.items = rest := by
  obtain ⟨items, depth, peak, depth_eq⟩ := s
  cases h
  exact ⟨_, rfl, rfl⟩

/-- What came off was the top. -/
theorem items_of_pop? {s t : Stack α} {a : α} (h : s.pop? = some (a, t)) :
    s.items = a :: t.items := by
  cases hitems : s.items with
  | nil =>
    rw [pop?_of_nil hitems] at h
    cases h
  | cons b rest =>
    obtain ⟨u, hpop, hrest⟩ := pop?_of_cons hitems
    rw [hpop] at h
    cases h
    rw [hrest]

end Stack

namespace Act

/-- One action after another. -/
theorem bind_apply {ε : Type} (x : EStateM ε (Machine E) α)
    (f : α → EStateM ε (Machine E) β) (m : Machine E) :
    (x >>= f) m =
      match x m with
      | .ok a after => f a after
      | .error e after => .error e after := by
  simp only [Bind.bind, EStateM.bind]
  cases x m <;> rfl

/-- A look at the machine. -/
theorem get_bind_apply (f : Machine E → Act E β) (m : Machine E) :
    (get >>= f) m = f m m := rfl

/-- An empty stack is the only thing that keeps a value from being taken. -/
theorem pop_apply (m : Machine E) :
    pop m =
      match m.data.pop? with
      | none => .error (.underflow .data) m
      | some (v, data) => .ok v { m with data := data } := by
  rw [pop]
  rw [get_bind_apply]
  cases m.data.pop? <;> rfl

/-- A value is looked at without being taken, if the stack is deep enough. -/
theorem peek_apply (n : Nat) (m : Machine E) :
    peek n m =
      match m.data.peek? n with
      | none => .error (.underflow .data) m
      | some v => .ok v m := by
  rw [peek]
  rw [get_bind_apply]
  cases m.data.peek? n <;> rfl

/-- A complaint is named after the word at work. -/
theorem fail_apply (message : String) (m : Machine E) :
    (fail message : Act E α) m
      = .error (.failed m.executingName message) m := rfl

/-- An empty return stack is the only thing that keeps a frame from being
taken. -/
theorem popFrame_apply (m : Machine E) :
    popFrame m =
      match m.returns.pop? with
      | none => .error (.underflow .returns) m
      | some (f, returns) => .ok f { m with returns := returns } := by
  rw [popFrame]
  rw [get_bind_apply]
  cases m.returns.pop? <;> rfl

/-- Outside of a thread there is no cursor to work with. -/
theorem cursor_apply (m : Machine E) :
    cursor m =
      match m.cursor with
      | none => .error .noThread m
      | some c => .ok c m := by
  rw [cursor]
  rw [get_bind_apply]
  cases m.cursor <;> rfl

/-- The operand is the cell at the cursor, which moves behind it. -/
theorem fetchOperand_apply (m : Machine E) :
    fetchOperand m =
      match m.cursor with
      | none => .error .noThread m
      | some c =>
        match c.fetch (m.dictionary.cells c.word) with
        | .error f => .error f m
        | .ok (cell, c) => .ok cell { m with cursor := some c } := by
  rw [fetchOperand, bind_apply, cursor_apply]
  cases m.cursor with
  | none => rfl
  | some c =>
    dsimp only
    rw [get_bind_apply, bind_apply]
    cases c.fetch (m.dictionary.cells c.word) <;> rfl

/-- A jump is checked against the length of the thread that runs. -/
theorem jump_apply (offset : Int64) (m : Machine E) :
    jump offset m =
      match m.cursor with
      | none => .error .noThread m
      | some c =>
        match c.jump (m.dictionary.cells c.word).size offset with
        | .error f => .error f m
        | .ok c => .ok () { m with cursor := some c } := by
  rw [jump, bind_apply, cursor_apply]
  cases m.cursor with
  | none => rfl
  | some c =>
    dsimp only
    rw [get_bind_apply, bind_apply]
    cases c.jump (m.dictionary.cells c.word).size offset <;> rfl

/-- A thread returns out of the run at its base, and to a caller above it. -/
theorem exitThread_apply (m : Machine E) :
    exitThread m =
      match m.cursor with
      | none => .error .noThread m
      | some _ =>
        if m.returns.depth ≤ m.base then .ok () { m with cursor := none }
        else
          match m.returns.pop? with
          | none => .error (.underflow .returns) m
          | some (.call caller, returns) =>
            .ok () { m with returns := returns, cursor := some caller }
          | some (.value v, returns) =>
            .error (.notExecutable ("return stack value " ++ v.text))
              { m with returns := returns } := by
  rw [exitThread, bind_apply, cursor_apply]
  cases running : m.cursor with
  | none => rfl
  | some c =>
    dsimp only
    rw [get_bind_apply]
    split
    · rfl
    · rw [bind_apply, popFrame_apply]
      cases m.returns.pop? with
      | none => rfl
      | some top =>
        obtain ⟨f, returns⟩ := top
        cases f with
        | call caller => rfl
        | value v =>
          dsimp only
          rw [← running]
          rfl

/-- A token that is there is read for its text. -/
theorem nextTokenText_of_read {m t : Machine E} {token : Token}
    (read : m.nextToken = (some token, t)) :
    nextTokenText m = .ok token.text t := by
  have first : nextToken? m = .ok m.nextToken.1 m.nextToken.2 := rfl
  rw [nextTokenText, bind_apply, first, read]
  rfl

/-- A sink that is full refuses the text. -/
theorem write_apply (text : String) (m : Machine E) :
    write text m =
      match m.output.write? text with
      | some output => .ok () { m with output := output }
      | none =>
        .error (.failed m.executingName ("write failed: " ++ Sink.refusal))
          m := by
  rw [write]
  rw [get_bind_apply]
  cases m.output.write? text <;> rfl

/-- A built-in word is found even if its name has been taken. -/
theorem builtin_apply (name : String) (m : Machine E) :
    builtin name m =
      match m.builtins.find? name with
      | none => .error (.notExecutable name) m
      | some h => .ok h m := by
  rw [builtin]
  rw [get_bind_apply]
  cases m.builtins.find? name <;> rfl

/-- Without a word under construction there is nothing to append to. -/
theorem underConstruction_apply (m : Machine E) :
    underConstruction m =
      match m.underConstruction with
      | none => .error .nothingDefined m
      | some h => .ok h m := by
  rw [underConstruction]
  rw [get_bind_apply]
  cases m.underConstruction <;> rfl

/-- A cell goes to the word under construction, if that is a thread. -/
theorem compile_apply (c : Cell) (m : Machine E) :
    compile c m =
      match m.underConstruction with
      | none => .error .nothingDefined m
      | some h =>
        match m.dictionary.append h c with
        | .error f => .error f m
        | .ok d => .ok () { m with dictionary := d } := by
  rw [compile, bind_apply, underConstruction_apply]
  cases under : m.underConstruction with
  | none => rfl
  | some h =>
    dsimp only
    rw [append, get_bind_apply, bind_apply]
    cases m.dictionary.append h c with
    | error f => rfl
    | ok d =>
      rw [← under]
      rfl

/-- Only a word can be taken to be executed, and what else was there is gone. -/
theorem popWord_apply (m : Machine E) :
    popWord m =
      match m.data.pop? with
      | none => .error (.underflow .data) m
      | some (.word w, data) => .ok w { m with data := data }
      | some (v, data) =>
        .error (.notExecutable v.text) { m with data := data } := by
  rw [popWord, bind_apply, pop_apply]
  cases m.data.pop? with
  | none => rfl
  | some top =>
    obtain ⟨v, data⟩ := top
    cases v <;> rfl

/-- An action that is run gives its result, with a fault as a halt. -/
theorem run_apply (x : Act E α) (m : Machine E) :
    x.run m =
      match x m with
      | .ok a after => .ok a after
      | .error f after => .error (.failed f) after := by
  simp only [Act.run, mapHalt]
  cases x m <;> rfl

/-- An action that ends well does so when a word runs it. -/
theorem run_of_ok {x : Act E α} {a : α} {m t : Machine E}
    (h : x m = .ok a t) : x.run m = .ok a t := by
  rw [run_apply, h]

/-- An action that a word runs ends well if the word does. -/
theorem eq_ok_of_run {x : Act E α} {a : α} {m t : Machine E}
    (h : x.run m = .ok a t) : x m = .ok a t := by
  rw [run_apply] at h
  split at h
  · next ran =>
    cases h
    exact ran
  · cases h

end Act

/-- `exec` executes the word on top of the data stack. -/
theorem ThreadWord.exec_apply (call : Handle → Run E Unit) (m : Machine E) :
    ThreadWord.act call .exec m =
      match m.data.pop? with
      | none => .error (.failed (.underflow .data)) m
      | some (.word w, data) => call w { m with data := data }
      | some (v, data) =>
        .error (.failed (.notExecutable v.text)) { m with data := data } := by
  rw [ThreadWord.act, Act.bind_apply, Act.run_apply, Act.popWord_apply]
  cases m.data.pop? with
  | none => rfl
  | some top =>
    obtain ⟨v, data⟩ := top
    cases v <;> rfl

namespace CompileWord

/-- What is done at the end of a definition for those who watch. -/
def announce : Act E Unit := do
  if (← get).watches .debug then
    let h ← Act.underConstruction
    modify fun m => m.record (.defined h.name (m.dump h))

/-- The word under construction is marked, and no other. -/
theorem immediate_apply (m : Machine E) :
    CompileWord.act .immediate m =
      match m.underConstruction with
      | none => .error .nothingDefined m
      | some h =>
        .ok () { m with dictionary := m.dictionary.markImmediate h } := by
  rw [act, Act.bind_apply, Act.underConstruction_apply]
  cases under : m.underConstruction with
  | none => rfl
  | some h =>
    dsimp only
    rw [← under]
    rfl

/-- Only a debugger is told of the word that has been defined. -/
theorem announce_apply (m : Machine E) :
    announce m =
      if m.watches .debug then
        match m.underConstruction with
        | none => .error .nothingDefined m
        | some h => .ok () (m.record (.defined h.name (m.dump h)))
      else .ok () m := by
  rw [announce, Act.get_bind_apply]
  split
  · rw [Act.bind_apply, Act.underConstruction_apply]
    cases m.underConstruction <;> rfl
  · rfl

end CompileWord

end Forth
