import Forth.Proofs.Moves
import Forth.Proofs.Settings

/-!
# Machines that differ only in control

Two machines are **alike** if they have the same dictionary and variables,
the same values on the data stack, the same mode, input and output, and the
same word under construction.  They may stand in different threads, have
different return stacks, and have seen different depths and events.

With the same native word at work in both, everything a quiet word can see
is the same: `atWork_congruence`.  So a quiet word gives the same result in
both and leaves machines behind that are alike again, each with its own
control state untouched (`act_alike`).
-/

namespace Forth

variable {E : Embedding}

namespace Machine

/-- Machines that agree on everything but control, depths and events. -/
structure Alike (m t : Machine E) : Prop where
  dictionary : t.dictionary = m.dictionary
  builtins : t.builtins = m.builtins
  data : t.data.items = m.data.items
  interpreting : t.interpreting = m.interpreting
  underConstruction : t.underConstruction = m.underConstruction
  memory : t.memory = m.memory
  location : t.location = m.location
  finished : t.finished = m.finished
  input : t.input = m.input
  output : t.output = m.output
  watcher : t.watcher = m.watcher
  host : t.host = m.host

namespace Alike

theorem refl (m : Machine E) : Alike m m :=
  ⟨rfl, rfl, rfl, rfl, rfl, rfl, rfl, rfl, rfl, rfl, rfl, rfl⟩

theorem symm {m t : Machine E} (h : Alike m t) : Alike t m :=
  ⟨h.dictionary.symm, h.builtins.symm, h.data.symm, h.interpreting.symm,
    h.underConstruction.symm, h.memory.symm, h.location.symm,
    h.finished.symm, h.input.symm, h.output.symm, h.watcher.symm,
    h.host.symm⟩

theorem trans {m t u : Machine E} (h : Alike m t) (h' : Alike t u) :
    Alike m u :=
  ⟨h'.dictionary.trans h.dictionary, h'.builtins.trans h.builtins,
    h'.data.trans h.data, h'.interpreting.trans h.interpreting,
    h'.underConstruction.trans h.underConstruction,
    h'.memory.trans h.memory, h'.location.trans h.location,
    h'.finished.trans h.finished, h'.input.trans h.input,
    h'.output.trans h.output, h'.watcher.trans h.watcher,
    h'.host.trans h.host⟩

variable {m t : Machine E}

/-- Alike machines have the same values to take. -/
theorem pop? (h : Alike m t) :
    (m.data.pop? = none ∧ t.data.pop? = none) ∨
    ∃ v data data', m.data.pop? = some (v, data) ∧
      t.data.pop? = some (v, data') ∧ data'.items = data.items := by
  have items := h.data
  cases hm : m.data.items with
  | nil =>
    rw [hm] at items
    exact .inl ⟨Stack.pop?_of_nil hm, Stack.pop?_of_nil items⟩
  | cons v rest =>
    rw [hm] at items
    obtain ⟨data, popped, below⟩ := Stack.pop?_of_cons hm
    obtain ⟨data', popped', below'⟩ := Stack.pop?_of_cons items
    exact .inr ⟨v, data, data', popped, popped', below'.trans below.symm⟩

/-- What comes off one data stack comes off the other. -/
theorem pop?_of_some (h : Alike m t) {v : Value} {data : Stack Value}
    (popped : m.data.pop? = some (v, data)) :
    ∃ data', t.data.pop? = some (v, data') ∧ data'.items = data.items := by
  have items := h.data.trans (Stack.items_of_pop? popped)
  exact Stack.pop?_of_cons items

/-- Events do not matter. -/
theorem record (h : Alike m t) (e e' : Event) :
    Alike (m.record e) (t.record e') := by
  rw [record_eq m, record_eq t]
  exact { h with }

/-- The setting is the same, and likeness is not disturbed when it changes. -/
theorem setting : SettingRelation (E := E) Alike where
  interpreting := fun h => h.interpreting
  underConstruction := fun h => h.underConstruction
  memory := fun h => h.memory
  output := fun h => h.output
  watcher := fun h => h.watcher
  outward := fun h _ _ _ _ _ _ _ _ interpreting memory output =>
    { h with interpreting := interpreting, memory := memory, output := output }
  dictionary := fun h => h.dictionary
  builtins := fun h => h.builtins
  location := fun h => h.location
  input := fun h => h.input
  setting := fun h _ _ _ _ _ _ _ _ dictionary under location input =>
    { h with
      dictionary := dictionary
      underConstruction := under
      location := location
      input := input }

/-- The same token is read. -/
theorem nextToken (h : Alike m t) :
    t.nextToken.1 = m.nextToken.1 ∧ Alike m.nextToken.2 t.nextToken.2 :=
  setting.nextToken h

end Alike

/-- Machines that are alike, with one native word at work in both. -/
structure AtWork (w : Handle) (m t : Machine E) : Prop
    extends Alike m t where
  leading : m.executing = some w
  following : t.executing = some w

/-- Which word is at work is no part of the setting. -/
theorem atWork_setting (w : Handle) :
    SettingRelation (E := E) (AtWork w) where
  interpreting := fun h => h.interpreting
  underConstruction := fun h => h.underConstruction
  memory := fun h => h.memory
  output := fun h => h.output
  watcher := fun h => h.watcher
  outward := fun h _ _ _ _ _ _ _ _ interpreting memory output =>
    { h with toAlike := Alike.setting.outward h.1 interpreting memory output }
  dictionary := fun h => h.dictionary
  builtins := fun h => h.builtins
  location := fun h => h.location
  input := fun h => h.input
  setting := fun h _ _ _ _ _ _ _ _ dictionary under location input =>
    { h with
      toAlike := Alike.setting.setting h.1 dictionary under location input }

/-- **Quiet words do not see through likeness**, as long as they are blamed
under the same name. -/
theorem atWork_congruence (w : Handle) :
    Congruence (E := E) (AtWork w) fun _ => False := by
  refine (atWork_setting w).congruence (fun {m t} h => ?_)
    (fun v m t h => ?_) (fun m t h => ?_) (fun n m t h => ?_)
  · unfold executingName
    rw [h.leading, h.following]
  · have items : (t.data.push v).items = (m.data.push v).items :=
      congrArg (v :: ·) h.data
    exact .ok { h with data := items }
  · rw [Act.pop_apply, Act.pop_apply]
    rcases h.pop? with ⟨empty, empty'⟩ | ⟨v, _, _, popped, popped', below⟩
    · rw [empty, empty']
      exact .error h
    · rw [popped, popped']
      exact .ok { h with data := below }
  · have same : t.data.peek? n = m.data.peek? n := by
      unfold Stack.peek?
      rw [h.data]
    rw [Act.peek_apply, Act.peek_apply, same]
    split
    · exact .error h
    · exact .ok h

/-- What is left of two machines after a quiet word. -/
structure Besides (m₀ t₀ m t : Machine E) : Prop extends Alike m t where
  leading : SameControl m₀ m
  following : SameControl t₀ t

/-- **A quiet word does the same in alike machines**, and leaves the control
state of each alone. -/
theorem act_alike {w : Handle} {b : Builtin} (quiet : b.isQuiet = true)
    (f g : Handle → Run E Unit) {m t : Machine E} (h : AtWork w m t) :
    Matches (Besides m t) (fun _ => False) (b.act f m) (b.act g t) := by
  have follows := (atWork_congruence w).act (fun _ _ h => h.data)
    (fun _ => False) (fun _ never => never) f g quiet m t h
  have before := (b.touches_act f quiet m).sameControl
  have after := (b.touches_act g quiet t).sameControl
  generalize b.act f m = r at follows before
  generalize b.act g t = s at follows after
  cases follows with
  | ok related => exact .ok ⟨related.toAlike, before, after⟩
  | error related => exact .error ⟨related.toAlike, before, after⟩
  | excused never => exact never.elim

end Machine

end Forth
