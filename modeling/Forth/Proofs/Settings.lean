import Forth.Proofs.Growth

/-!
# Machines in the same setting

What the built-in words do with a machine, apart from moving values and
control, they do with its setting: words, input, place, mode, variables and
output.  Two machines in the same setting stay so, whatever is done to both.

This is said of a relation between machines.  An **outward relation** is one
between machines with the same mode, variables and output that is not
disturbed when these change alike; a **setting relation** is one of the same
kind for all of the setting.  Events need not be the same: they tell of the
rest of the machine as well, and no word looks at them.

Main statement: `SettingRelation.congruence`.  Under a setting relation, all
services of the machine follow themselves if those do that move values.
-/

namespace Forth.Machine

variable {E : Embedding} {excused : Fault → Prop}

/-- A relation between machines with the same mode, variables and output that
is not disturbed when these change on both sides alike. -/
structure OutwardRelation (S : Machine E → Machine E → Prop) : Prop where
  interpreting : ∀ {m t}, S m t → t.interpreting = m.interpreting
  underConstruction : ∀ {m t}, S m t →
    t.underConstruction = m.underConstruction
  memory : ∀ {m t}, S m t → t.memory = m.memory
  output : ∀ {m t}, S m t → t.output = m.output
  watcher : ∀ {m t}, S m t → t.watcher = m.watcher
  outward : ∀ {m t}, S m t → ∀ {interpreting interpreting' memory memory'
      output output' events events'},
    interpreting' = interpreting → memory' = memory → output' = output →
    S { m with
        interpreting := interpreting
        memory := memory
        output := output
        events := events }
      { t with
        interpreting := interpreting'
        memory := memory'
        output := output'
        events := events' }

/-- A relation between machines in the same setting that is not disturbed when
the setting changes on both sides alike. -/
structure SettingRelation (S : Machine E → Machine E → Prop) : Prop
    extends OutwardRelation S where
  dictionary : ∀ {m t}, S m t → t.dictionary = m.dictionary
  builtins : ∀ {m t}, S m t → t.builtins = m.builtins
  location : ∀ {m t}, S m t → t.location = m.location
  input : ∀ {m t}, S m t → t.input = m.input
  setting : ∀ {m t}, S m t → ∀ {dictionary dictionary' underConstruction
      underConstruction' location location' input input'},
    dictionary' = dictionary → underConstruction' = underConstruction →
    location' = location → input' = input →
    S { m with
        dictionary := dictionary
        underConstruction := underConstruction
        location := location
        input := input }
      { t with
        dictionary := dictionary'
        underConstruction := underConstruction'
        location := location'
        input := input' }

namespace OutwardRelation

variable {S : Machine E → Machine E → Prop} {m t : Machine E}

/-- Events do not matter. -/
theorem record (r : OutwardRelation S) (h : S m t) (e e' : Event) :
    S (m.record e) (t.record e') := by
  rw [record_eq m, record_eq t]
  exact r.outward h (r.interpreting h) (r.memory h) (r.output h)

/-- The same text is written, or refused under the same name. -/
theorem write (r : OutwardRelation S)
    (blamed : ∀ {m t}, S m t → t.executingName = m.executingName)
    (text : String) :
    Follows S excused (Act.write text) (Act.write text) := by
  intro m t h
  rw [Act.write_apply, Act.write_apply, r.output h, blamed h]
  split
  · exact .ok (r.outward h (r.interpreting h) (r.memory h) rfl)
  · exact .error h

theorem setVariable (r : OutwardRelation S) (name : String) (v : Value) :
    Follows S excused (Act.setVariable name v) (Act.setVariable name v) := by
  intro m t h
  have memory := congrArg (Table.insert · name v) (r.memory h)
  exact .ok (r.outward h (r.interpreting h) memory (r.output h))

theorem setInterpreting (r : OutwardRelation S) (mode : Bool) :
    Follows S excused (Act.setInterpreting mode)
      (Act.setInterpreting mode) := by
  intro m t h
  show Matches S excused (.ok () (m.setInterpreting mode))
    (.ok () (t.setInterpreting mode))
  rw [setInterpreting_eq m, setInterpreting_eq t]
  exact .ok (r.outward h rfl (r.memory h) (r.output h))

/-- The end of a definition is made known on both sides, or on none. -/
theorem announce (r : OutwardRelation S) :
    Follows S excused CompileWord.announce CompileWord.announce := by
  intro m t h
  have watches : t.watches .debug = m.watches .debug := by
    unfold Machine.watches
    rw [r.watcher h]
  rw [CompileWord.announce_apply, CompileWord.announce_apply, watches,
    r.underConstruction h]
  split
  · split
    · exact .error h
    · exact .ok (r.record h _ _)
  · exact .ok h

end OutwardRelation

/-- Heeding notices writes the same to the same output. -/
theorem output_foldl_heed {m t : Machine E} (same : t.output = m.output)
    (notices : List Notice) :
    (notices.foldl heed t).output = (notices.foldl heed m).output := by
  induction notices generalizing m t with
  | nil => exact same
  | cons notice notices ih =>
    apply ih
    cases notice with
    | prompted text => exact congrArg (Sink.append · text) same
    | readFailed =>
      unfold heed
      rw [record_eq m, record_eq t]
      exact same

namespace SettingRelation

variable {S : Machine E → Machine E → Prop} {m t : Machine E}

/-- Both machines go on with the same input. -/
theorem withInput (r : SettingRelation S) (h : S m t) (input : Source) :
    S (m.withInput input) (t.withInput input) := by
  have moved : S { m with input := input.takeNotices.2 }
      { t with input := input.takeNotices.2 } :=
    r.setting h (r.dictionary h) (r.underConstruction h) (r.location h) rfl
  have output : (t.withInput input).output = (m.withInput input).output :=
    output_foldl_heed (r.output moved) _
  rw [withInput_eq m, withInput_eq t]
  exact r.outward moved (r.interpreting h) (r.memory h) output

/-- The same token is read. -/
theorem nextToken (r : SettingRelation S) (h : S m t) :
    t.nextToken.1 = m.nextToken.1 ∧ S m.nextToken.2 t.nextToken.2 := by
  unfold Machine.nextToken
  rw [r.input h]
  split
  · exact ⟨rfl, r.withInput h _⟩
  · next token input _ =>
    have read := r.withInput h input
    exact ⟨rfl, r.setting read (r.dictionary read) (r.underConstruction read)
      rfl (r.input read)⟩

/-- The same comment is skipped. -/
theorem skipComment (r : SettingRelation S) (h : S m t) (limit : Nat) :
    S (CompileWord.skipComment limit m)
      (CompileWord.skipComment limit t) := by
  induction limit generalizing m t with
  | zero => exact h
  | succ limit ih =>
    obtain ⟨token, after⟩ := r.nextToken h
    unfold CompileWord.skipComment
    generalize m.nextToken = read at token after
    generalize t.nextToken = read' at token after
    obtain ⟨token₁, m₁⟩ := read
    obtain ⟨token₂, t₁⟩ := read'
    cases token
    cases token₁ with
    | none => exact after
    | some token =>
      dsimp only
      split
      · exact after
      · exact ih after

/-- The same cell is appended to the same word. -/
theorem compile (r : SettingRelation S) (c : Cell) :
    Follows S excused (Act.compile c) (Act.compile c) := by
  intro m t h
  rw [Act.compile_apply, Act.compile_apply, r.underConstruction h,
    r.dictionary h]
  split
  · exact .error h
  · split
    · exact .error h
    · exact .ok (r.setting h rfl rfl (r.location h) (r.input h))

theorem markImmediate (r : SettingRelation S) :
    Follows S excused (CompileWord.act .immediate)
      (CompileWord.act .immediate) := by
  intro m t h
  rw [CompileWord.immediate_apply, CompileWord.immediate_apply,
    r.underConstruction h, r.dictionary h]
  split
  · exact .error h
  · exact .ok (r.setting h rfl rfl (r.location h) (r.input h))

/-- The same word is created, in the same place. -/
theorem createWord (r : SettingRelation S) (name : String) :
    Follows S excused (Act.createWord name) (Act.createWord name) := by
  intro m t h
  have recorded := r.record h (.creating name) (.creating name)
  show Matches S excused
    (.ok (m.createWord name).1 (m.createWord name).2)
    (.ok (t.createWord name).1 (t.createWord name).2)
  unfold Machine.createWord define definitionSite
  dsimp only
  rw [r.dictionary recorded, r.location recorded]
  exact .ok (r.setting recorded rfl rfl rfl (r.input recorded))

/-- **A setting relation is a congruence** if the services that move values
keep it up, and failures are blamed on the same word. -/
theorem congruence (r : SettingRelation S)
    (blamed : ∀ {m t}, S m t → t.executingName = m.executingName)
    (push : ∀ v, Follows S excused (Act.push v) (Act.push v))
    (pop : Follows S excused Act.pop Act.pop)
    (peek : ∀ n, Follows S excused (Act.peek n) (Act.peek n)) :
    Congruence S excused where
  executingName := blamed
  interpreting := r.interpreting
  names := fun h => by rw [r.dictionary h]
  isImmediate := fun h => by rw [r.dictionary h]
  listing := fun h => by rw [r.dictionary h]
  definitionText := fun {m t} h => by
    funext v
    unfold definitionText decompile decompileContext
    rw [r.dictionary h, r.builtins h]
  builtins := r.builtins
  memory := r.memory
  push := push
  pop := pop
  peek := peek
  tokenText := fun m t h => by
    obtain ⟨token, after⟩ := r.nextToken h
    have result (m : Machine E) :
        (Option.map Token.text <$> Act.nextToken?) m =
          .ok (m.nextToken.1.map Token.text) m.nextToken.2 := rfl
    rw [result, result, token]
    exact .ok after
  nextChar := fun m t h => by
    have result (m : Machine E) : Act.nextChar? m =
        .ok m.input.next.1 (m.withInput m.input.next.2) := rfl
    rw [result, result, r.input h]
    exact .ok (r.withInput h _)
  comment := fun m t h => by
    have result (m : Machine E) : CompileWord.act .comment m =
        .ok () (CompileWord.skipComment (m.input.supply + 1) m) :=
      rfl
    rw [result, result, r.input h]
    exact .ok (r.skipComment h _)
  write := r.write blamed
  compile := r.compile
  markImmediate := r.markImmediate
  setInterpreting := r.setInterpreting
  createWord := r.createWord
  announce := r.announce
  setVariable := r.setVariable

end SettingRelation

end Forth.Machine
