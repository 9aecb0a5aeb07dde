import Forth.Proofs.Redefinition
import Forth.Proofs.Returns

/-!
# Cursors are seated

A cursor stands in a thread, and threads grow while cursors into them wait on
the return stack.  This module shows that none of them is ever lost.

* The running thread is **seated**: its cursor is in the thread or at its end.
* Each call on the return stack is seated **behind a call**: the cell before it
  is a word that is a thread, or `exec`.

Both are kept by everything that appends to threads, since a thread keeps its
cells (`Dictionary.Extends`), and by all built-in words
(`keeper_intactBut`).  To execute a word with a thread running asks for a
little more: the cell before the cursor is that word, or `exec` (`Ready`).
With it, `execute_intactBut` is an induction on the allowance, and
`Occurs.intactBut` says the same of all machines that occur while a word is
executed.

Nothing need be known of frames that were on the return stack before: a run
goes back to calls above its base only, and these are its own (`IntactBut`).
-/

namespace Forth

open Relation

variable {E : Embedding}

/-! ## Dictionaries that grow -/

/-- Threads have got more cells at most, and native words are the same. -/
structure Dictionary.Extends (d d' : Dictionary E) : Prop where
  thread : ∀ {h : Handle} {cells : Array Cell}, d.body h = .thread cells →
    ∃ more, d'.body h = .thread (cells ++ more)
  builtin : ∀ {h : Handle} {b : Builtin}, d.body h = .builtin b →
    d'.body h = .builtin b

namespace Dictionary

theorem body_of_word {d : Dictionary E} {h : Handle} {w : Word E}
    (present : d.word? h = some w) : d.body h = w.body := by
  unfold body
  rw [present]
  rfl

theorem body_of_none {d : Dictionary E} {h : Handle}
    (absent : d.word? h = none) : d.body h = .thread #[] := by
  unfold body
  rw [absent]
  rfl

/-- Words grow, and new ones are threads. -/
theorem Extends.of_words {d d' : Dictionary E}
    (older : ∀ {h : Handle} {w : Word E}, d.word? h = some w →
      ∃ w', d'.word? h = some w' ∧ w.Grown w')
    (newer : ∀ {h : Handle} {w' : Word E}, d.word? h = none →
      d'.word? h = some w' → ∃ cells, w'.body = .thread cells) :
    Extends d d' := by
  constructor
  · intro h cells body
    cases present : d.word? h with
    | some w =>
      obtain ⟨w', present', grown⟩ := older present
      rw [body_of_word present] at body
      rw [body_of_word present']
      exact grown.thread cells body
    | none =>
      rw [body_of_none present] at body
      cases body
      cases present' : d'.word? h with
      | none => exact ⟨#[], body_of_none present'⟩
      | some w' =>
        obtain ⟨cells, body'⟩ := newer present present'
        refine ⟨cells, ?_⟩
        rw [body_of_word present', body', Array.empty_append]
  · intro h b body
    cases present : d.word? h with
    | some w =>
      obtain ⟨w', present', grown⟩ := older present
      rw [body_of_word present] at body
      have native : ∀ cells, w.body ≠ .thread cells := by
        intro cells thread
        rw [body] at thread
        cases thread
      rw [body_of_word present', grown.native native, body]
    | none =>
      rw [body_of_none present] at body
      cases body

theorem Extends.refl (d : Dictionary E) : Extends d d :=
  .of_words (fun {_ w} present => ⟨w, present, .refl w⟩)
    fun absent present => absurd (absent.symm.trans present) nofun

/-- Words that have grown twice have grown. -/
theorem Extends.trans {d d' d'' : Dictionary E} (h : Extends d d')
    (h' : Extends d' d'') : Extends d d'' where
  thread := fun body => by
    obtain ⟨more, body'⟩ := h.thread body
    obtain ⟨rest, body''⟩ := h'.thread body'
    exact ⟨more ++ rest, by rw [body'', Array.append_assoc]⟩
  builtin := fun body => h'.builtin (h.builtin body)

theorem extends_change (d : Dictionary E) (h : Handle)
    {f : Word E → Word E} (grown : ∀ w, Word.Grown w (f w)) :
    Extends d (d.change h f) := by
  refine .of_words (fun present => ?_) fun absent present => ?_
  · obtain ⟨w', present', grown', _⟩ :=
      word?_change_of_some (h := h) grown present
    exact ⟨w', present', grown'⟩
  · obtain ⟨w, old, _⟩ := exists_word_of_change grown present
    exact absurd (absent.symm.trans old) nofun

/-- A new word leaves the others as they are. -/
theorem extends_define (d : Dictionary E) (name : String)
    (location : Location) :
    Extends d (d.define (.ofCells name location #[])).2 := by
  refine .of_words (fun {_ w} present => ?_) fun {h w'} absent present => ?_
  · exact ⟨w, word?_define_of_some present _, .refl w⟩
  · replace present : (d.words.push (.ofCells name location #[]))[h.serial]? =
      some w' := present
    rw [Array.getElem?_push] at present
    split at present
    · cases present
      exact ⟨#[], rfl⟩
    · exact absurd (absent.symm.trans present) nofun

end Dictionary

theorem Machine.Touch.extends {m t : Machine E} (h : Touch m t) :
    Dictionary.Extends m.dictionary t.dictionary := by
  cases h with
  | aside => exact .refl _
  | append under grown =>
    rw [Dictionary.eq_change_of_append grown]
    exact m.dictionary.extends_change _ (.grow _)
  | mark under => exact m.dictionary.extends_change _ .mark
  | create name location => exact m.dictionary.extends_define name location

/-- **Whatever a run does, the words that there were have only grown.** -/
theorem Machine.Grows.extends {m t : Machine E} (h : Grows m t) :
    Dictionary.Extends m.dictionary t.dictionary := by
  induction h with
  | refl => exact .refl _
  | tail _ grow ih =>
    cases grow with
    | control => exact ih
    | touch touch => exact ih.trans touch.extends

namespace Machine

/-! ## Cursors -/

/-- A cursor stands in a thread or at its end. -/
def Seated (d : Dictionary E) (c : Cursor) : Prop :=
  ∃ cells, d.body c.word = .thread cells ∧ c.index ≤ cells.size

/-- The cell before a cursor, in its thread, is a word. -/
def Behind (d : Dictionary E) (c : Cursor) (w : Handle) : Prop :=
  ∃ cells, d.body c.word = .thread cells ∧ 1 ≤ c.index ∧
    c.index ≤ cells.size ∧ cells[c.index - 1]? = some (.word w)

/-- A word that can call threads: a thread, or `exec`. -/
def CanCall (d : Dictionary E) (w : Handle) : Prop :=
  (∃ cells, d.body w = .thread cells) ∨
    d.body w = .builtin (.thread .exec)

/-- A cursor behind a cell lies within its thread. -/
theorem Behind.seated {d : Dictionary E} {c : Cursor} {w : Handle}
    (h : Behind d c w) : Seated d c := by
  obtain ⟨cells, body, _, within, _⟩ := h
  exact ⟨cells, body, within⟩

section Extends

variable {d d' : Dictionary E} {c : Cursor} {w : Handle}

/-- Cursors stay within threads that grow. -/
theorem Seated.extend (h : Seated d c) (e : d.Extends d') :
    Seated d' c := by
  obtain ⟨cells, body, within⟩ := h
  obtain ⟨more, body'⟩ := e.thread body
  refine ⟨cells ++ more, body', ?_⟩
  rw [Array.size_append]
  omega

/-- The cell before a cursor stays the same when the thread grows. -/
theorem Behind.extend (h : Behind d c w) (e : d.Extends d') :
    Behind d' c w := by
  obtain ⟨cells, body, positive, within, cell⟩ := h
  obtain ⟨more, body'⟩ := e.thread body
  refine ⟨cells ++ more, body', positive, ?_, ?_⟩
  · rw [Array.size_append]
    omega
  · rw [Array.getElem?_append_left (by omega)]
    exact cell

theorem CanCall.extend (h : CanCall d w) (e : d.Extends d') :
    CanCall d' w := by
  rcases h with ⟨cells, thread⟩ | exec
  · obtain ⟨more, thread'⟩ := e.thread thread
    exact .inl ⟨_, thread'⟩
  · exact .inr (e.builtin exec)

end Extends

/-- The cell before a cursor is a word that can call. -/
def Calling (d : Dictionary E) (c : Cursor) : Prop :=
  ∃ w, Behind d c w ∧ CanCall d w

theorem Calling.extend {d d' : Dictionary E} {c : Cursor} (h : Calling d c)
    (e : d.Extends d') : Calling d' c := by
  obtain ⟨w, behind, canCall⟩ := h
  exact ⟨w, behind.extend e, canCall.extend e⟩

/-- The running thread is seated, and so is every call, behind a word that
can call. -/
structure Intact (m : Machine E) : Prop where
  running : ∀ c, m.cursor = some c → Seated m.dictionary c
  calls : ∀ c, .call c ∈ m.returns.items →
    ∃ w, Behind m.dictionary c w ∧ CanCall m.dictionary w

/-- The frames above the base of the run. -/
def recent (m : Machine E) : List Frame :=
  m.returns.items.take (m.returns.items.length - m.base)

/-- Frames are recent if they were before some were taken away. -/
theorem recent_subset {m t : Machine E}
    (frames : t.returns.items <:+ m.returns.items)
    (base : t.base = m.base) : t.recent ⊆ m.recent := by
  obtain ⟨newer, all⟩ := frames
  unfold recent
  rw [base, ← all, List.length_append]
  by_cases within : m.base ≤ t.returns.items.length
  · rw [Nat.add_sub_assoc within, List.take_length_add_append]
    exact List.subset_append_right _ _
  · rw [Nat.sub_eq_zero_of_le (by omega), List.take_zero]
    exact List.nil_subset _

/-- With another frame on top. -/
theorem recent_push {m t : Machine E} {f : Frame}
    (frames : t.returns.items = f :: m.returns.items)
    (base : t.base = m.base) : t.recent ⊆ f :: m.recent := by
  unfold recent
  rw [base, frames, List.length_cons]
  by_cases within : m.base ≤ m.returns.items.length
  · rw [Nat.sub_add_comm within, List.take_succ_cons]
    exact List.Subset.refl _
  · rw [Nat.sub_eq_zero_of_le (by omega), List.take_zero]
    exact List.nil_subset _

/-- Cursors are intact, except that nothing is known of some old frames.
None of these is above the base while a thread is running, so that no thread
goes back to them. -/
structure IntactBut (old : List Frame) (m : Machine E) : Prop where
  running : ∀ c, m.cursor = some c → Seated m.dictionary c
  calls : ∀ c, .call c ∈ m.returns.items →
    .call c ∈ old ∨ Calling m.dictionary c
  recent : m.cursor ≠ none → ∀ c, .call c ∈ m.recent →
    Calling m.dictionary c

theorem intactBut_nil_iff {m : Machine E} : IntactBut [] m ↔ Intact m := by
  constructor
  · intro h
    refine ⟨h.running, fun c call => ?_⟩
    exact (h.calls c call).resolve_left List.not_mem_nil
  · intro h
    refine ⟨h.running, fun c call => .inr (h.calls c call), ?_⟩
    exact fun _ c call => h.calls c (List.take_subset _ _ call)

namespace IntactBut

variable {old : List Frame} {m t : Machine E}

/-- No cursor is new, and no thread has lost a cell. -/
theorem of_extends (h : IntactBut old m)
    (e : m.dictionary.Extends t.dictionary) (cursor : t.cursor = m.cursor)
    (returns : t.returns = m.returns) (base : t.base = m.base) :
    IntactBut old t where
  running := fun c running => (h.running c (cursor ▸ running)).extend e
  calls := fun c call =>
    (h.calls c (returns ▸ call)).imp id fun calling => calling.extend e
  recent := fun running c call => by
    have frames := recent_subset (returns ▸ List.suffix_refl _) base
    exact (h.recent (cursor ▸ running) c (frames call)).extend e

/-- The running thread has come to another place. -/
theorem of_cursor (h : IntactBut old m)
    (dictionary : t.dictionary = m.dictionary)
    (frames : t.returns.items <:+ m.returns.items) (base : t.base = m.base)
    (before : t.cursor ≠ none → m.cursor ≠ none)
    (seated : ∀ c, t.cursor = some c → Seated m.dictionary c) :
    IntactBut old t where
  running := fun c running => dictionary ▸ seated c running
  calls := fun c call => dictionary ▸ h.calls c (frames.subset call)
  recent := fun running c call =>
    dictionary ▸ h.recent (before running) c (recent_subset frames base call)

/-- Words and control are the same. -/
theorem of_same (h : IntactBut old m)
    (dictionary : t.dictionary = m.dictionary)
    (cursor : t.cursor = m.cursor) (returns : t.returns = m.returns)
    (base : t.base = m.base) : IntactBut old t :=
  h.of_extends (dictionary ▸ .refl _) cursor returns base

/-- No thread is running. -/
theorem of_idle (h : IntactBut old m)
    (dictionary : t.dictionary = m.dictionary) (cursor : t.cursor = none)
    (frames : t.returns.items <:+ m.returns.items) : IntactBut old t where
  running := fun _ running => absurd (cursor.symm.trans running) nofun
  calls := fun c call => dictionary ▸ h.calls c (frames.subset call)
  recent := fun running => absurd cursor running

/-- Of no frame is anything known. -/
theorem of_returns (cursor : m.cursor = none) :
    IntactBut m.returns.items m where
  running := fun _ running => absurd (cursor.symm.trans running) nofun
  calls := fun _ call => .inl call
  recent := fun running => absurd cursor running

/-- A run begins: no frame is above its base. -/
theorem enter {w : Handle} {cells : Array Cell} (h : IntactBut old m)
    (body : m.dictionary.body w = .thread cells)
    (dictionary : t.dictionary = m.dictionary)
    (cursor : t.cursor = some (.start w)) (returns : t.returns = m.returns)
    (base : t.base = m.returns.depth) : IntactBut old t where
  running := by
    intro c running
    cases cursor.symm.trans running
    exact ⟨cells, dictionary ▸ body, Nat.zero_le _⟩
  calls := fun c call => dictionary ▸ h.calls c (returns ▸ call)
  recent := fun _ c call => by
    have none : t.recent = [] := by
      unfold Machine.recent
      rw [base, returns, m.returns.depth_eq, Nat.sub_self, List.take_zero]
    rw [none] at call
    exact absurd call List.not_mem_nil

end IntactBut

namespace Intact

variable {m t : Machine E}

/-- Words and control are the same. -/
theorem of_same (h : Intact m) (dictionary : t.dictionary = m.dictionary)
    (cursor : t.cursor = m.cursor) (returns : t.returns = m.returns) :
    Intact t where
  running := fun c running => dictionary ▸ h.running c (cursor ▸ running)
  calls := fun c call => dictionary ▸ h.calls c (returns ▸ call)

/-- Nothing is there to be intact. -/
theorem of_nothing (cursor : t.cursor = none)
    (empty : OnlyParked t.returns.items) : Intact t where
  running := fun _ running => absurd (cursor.symm.trans running) nofun
  calls := fun c call => absurd call (empty c)

end Intact

/-! ## The built-in words -/

section Builtins

variable {old : List Frame}

theorem fetchOperand_intactBut :
    Keeps (IntactBut old) (Act.fetchOperand : Act E Cell) := by
  intro m h
  rw [Act.fetchOperand_apply]
  split
  · exact h
  · next c running =>
    obtain ⟨cells, body, _⟩ := h.running c running
    rw [Dictionary.cells_of_thread body]
    split
    · exact h
    · next cell c' fetched =>
      refine h.of_cursor rfl (List.suffix_refl _) rfl (by simp [running]) ?_
      rintro _ ⟨⟩
      exact ⟨cells, Cursor.fetch_word fetched ▸ body,
        Cursor.fetch_index_le fetched⟩

theorem jump_intactBut (offset : Int64) :
    Keeps (IntactBut old) (Act.jump offset : Act E Unit) := by
  intro m h
  rw [Act.jump_apply]
  split
  · exact h
  · next c running =>
    obtain ⟨cells, body, _⟩ := h.running c running
    rw [Dictionary.cells_of_thread body]
    split
    · exact h
    · next c' jumped =>
      refine h.of_cursor rfl (List.suffix_refl _) rfl (by simp [running]) ?_
      rintro _ ⟨⟩
      exact ⟨cells, Cursor.jump_word jumped ▸ body,
        Cursor.jump_index_le jumped⟩

/-- A thread that exits goes back to a call above the base, which is
seated. -/
theorem exitThread_intactBut :
    Keeps (IntactBut old) (Act.exitThread : Act E Unit) := by
  intro m h
  rw [Act.exitThread_apply]
  split
  · exact h
  · next c running =>
    have was : m.cursor ≠ none := by simp [running]
    split
    · exact h.of_idle rfl rfl (List.suffix_refl _)
    · next above =>
      split
      · exact h
      · next caller returns popped =>
        have frames := Stack.items_of_pop? popped
        have top : Frame.call caller ∈ m.recent := by
          rw [m.returns.depth_eq, frames, List.length_cons] at above
          unfold recent
          rw [frames, List.length_cons, Nat.sub_add_comm (by omega),
            List.take_succ_cons]
          exact List.mem_cons_self
        refine h.of_cursor rfl (frames ▸ List.suffix_cons _ _) rfl
          (fun _ => was) ?_
        rintro _ ⟨⟩
        obtain ⟨w, behind, _⟩ := h.recent was caller top
        exact behind.seated
      · next v returns popped =>
        have frames := Stack.items_of_pop? popped
        exact h.of_cursor rfl (frames ▸ List.suffix_cons _ _) rfl id
          h.running

end Builtins

/-- What `r>` and `rdrop` take is a parked value.  If there is none on top,
the return stack is left as it was. -/
theorem takeParked_error {m t : Machine E} {f : Fault}
    (failed : StackWord.takeParked m = .error f t) :
    t.returns.items = m.returns.items ∧
      t = { m with returns := t.returns } := by
  rw [StackWord.takeParked, Act.bind_apply, Act.popFrame_apply] at failed
  cases popped : m.returns.pop? with
  | none =>
    rw [popped] at failed
    cases failed
    exact ⟨rfl, rfl⟩
  | some top =>
    obtain ⟨frame, returns⟩ := top
    rw [popped] at failed
    cases frame with
    | value v => cases failed
    | call c =>
      cases failed
      exact ⟨(Stack.items_of_pop? popped).symm, rfl⟩

/-- All that a built-in word does by itself leaves the cursors intact. -/
theorem keeper_intactBut (old : List Frame) :
    Keeper (IntactBut (E := E) old) where
  touch := fun {m t} touch h =>
    have same := Touches.sameControl (.single touch)
    h.of_extends touch.extends same.cursor same.returns same.base
  park := fun v m h => by
    have callOf {c : Cursor} {frames : List Frame}
        (call : Frame.call c ∈ .value v :: frames) : .call c ∈ frames := by
      rcases List.mem_cons.1 call with same | older
      · cases same
      · exact older
    refine ⟨h.running, fun c call => h.calls c (callOf call), ?_⟩
    intro running c call
    have pushed := recent_push (m := m)
      (t := leftBy (Act.pushFrame (.value v) m)) rfl rfl
    exact h.recent running c (callOf (pushed call))
  unpark := fun m h => by
    cases taken : StackWord.takeParked m with
    | ok v t =>
      obtain ⟨frames, same⟩ := takeParked_ok taken
      have suffix : t.returns.items <:+ m.returns.items :=
        frames ▸ List.suffix_cons _ _
      show IntactBut old t
      rw [same]
      exact h.of_cursor rfl suffix rfl id h.running
    | error f t =>
      obtain ⟨frames, same⟩ := takeParked_error taken
      have suffix : t.returns.items <:+ m.returns.items :=
        frames ▸ List.suffix_refl _
      show IntactBut old t
      rw [same]
      exact h.of_cursor rfl suffix rfl id h.running
  fetch := fetchOperand_intactBut
  jump := jump_intactBut

section Builtins

variable {old : List Frame}

/-- Being told to stop gives up calls at most. -/
theorem finish_intactBut (m : Machine E) (h : IntactBut old m) :
    IntactBut old m.finish :=
  h.of_idle rfl rfl (List.drop_suffix _ _)

/-- A native word, `exec` apart. -/
theorem act_intactBut {b : Builtin} (notExec : b ≠ .thread .exec)
    (call : Handle → Run E Unit) : Keeps (IntactBut old) (b.act call) :=
  (keeper_intactBut old).act (fun _ => exitThread_intactBut)
    (fun _ => finish_intactBut) fun isExec => absurd isExec notExec

end Builtins

/-! ## Execution -/

section Execution

variable {old : List Frame}

/-- A word can be executed: if a thread is running, the cell before its
cursor is that word, or `exec`. -/
structure Ready (old : List Frame) (m : Machine E) (w : Handle) : Prop
    extends IntactBut old m where
  behind : ∀ c, m.cursor = some c → ∃ v, Behind m.dictionary c v ∧
    (v = w ∨ m.dictionary.body v = .builtin (.thread .exec))

/-- With no thread running, every word can. -/
theorem IntactBut.ready {m : Machine E} (h : IntactBut old m)
    (idle : m.cursor = none) (w : Handle) : Ready old m w where
  toIntactBut := h
  behind := fun _ running => absurd (idle.symm.trans running) nofun

/-- Words and control are the same. -/
theorem Ready.of_same {m t : Machine E} {w : Handle} (h : Ready old m w)
    (dictionary : t.dictionary = m.dictionary) (cursor : t.cursor = m.cursor)
    (returns : t.returns = m.returns) (base : t.base = m.base) :
    Ready old t w where
  toIntactBut := h.toIntactBut.of_same dictionary cursor returns base
  behind := fun c running => dictionary ▸ h.behind c (cursor ▸ running)

/-- The word that `exec` finds. -/
theorem Ready.of_exec {m : Machine E} {w : Handle} (h : Ready old m w)
    (body : m.dictionary.body w = .builtin (.thread .exec)) (v : Handle) :
    Ready old m v where
  toIntactBut := h.toIntactBut
  behind := fun c running => by
    obtain ⟨u, behind, rfl | exec⟩ := h.behind c running
    · exact ⟨u, behind, .inr body⟩
    · exact ⟨u, behind, .inr exec⟩

/-- The word in a cell that has been fetched. -/
theorem IntactBut.fetched {m : Machine E} {c : Cursor} {w : Handle}
    (h : IntactBut old m) (running : m.cursor = some c)
    (present : (m.dictionary.cells c.word)[c.index]? = some (.word w)) :
    Ready old (m.fetched c (.word w)) w := by
  obtain ⟨cells, body, _⟩ := h.running c running
  rw [Dictionary.cells_of_thread body] at present
  have within := (Array.getElem?_eq_some_iff.1 present).1
  have behind : Behind m.dictionary ⟨c.word, c.index + 1⟩ w :=
    ⟨cells, body, Nat.le_add_left 1 _, within, present⟩
  rw [fetched_eq]
  constructor
  · refine h.of_cursor rfl (List.suffix_refl _) rfl (by simp [running]) ?_
    rintro _ ⟨⟩
    exact behind.seated
  · rintro _ ⟨⟩
    exact ⟨w, behind, .inl rfl⟩

/-- A cell with a value that has been fetched. -/
theorem IntactBut.literal {m : Machine E} {c : Cursor} {v : Value}
    (h : IntactBut old m) (running : m.cursor = some c)
    (present : (m.dictionary.cells c.word)[c.index]? = some (.literal v)) :
    IntactBut old (m.fetched c (.literal v)) := by
  obtain ⟨cells, body, _⟩ := h.running c running
  rw [Dictionary.cells_of_thread body] at present
  have within := (Array.getElem?_eq_some_iff.1 present).1
  rw [fetched_eq]
  refine h.of_cursor rfl (List.suffix_refl _) rfl (by simp [running]) ?_
  rintro _ ⟨⟩
  exact ⟨cells, body, within⟩

/-- A thread is called: the cursor of the caller is behind the call. -/
theorem Ready.descend {m : Machine E} {c : Cursor} {w : Handle}
    {cells : Array Cell} (h : Ready old m w) (running : m.cursor = some c)
    (body : m.dictionary.body w = .thread cells) :
    IntactBut old (m.descend c w) := by
  have calling : Calling m.dictionary c := by
    obtain ⟨v, behind, rfl | exec⟩ := h.behind c running
    · exact ⟨v, behind, .inl ⟨cells, body⟩⟩
    · exact ⟨v, behind, .inr exec⟩
  constructor
  · rintro _ ⟨⟩
    exact ⟨cells, body, Nat.zero_le _⟩
  · intro d call
    replace call : Frame.call d ∈ .call c :: m.returns.items := call
    rcases List.mem_cons.1 call with same | older
    · cases same
      exact .inr calling
    · exact h.calls d older
  · intro _ d call
    have pushed := recent_push (m := m) (t := m.descend c w) rfl rfl
    rcases List.mem_cons.1 (pushed call) with same | older
    · cases same
      exact calling
    · exact h.recent (by simp [running]) d older

/-- A run begins. -/
theorem IntactBut.entering {m : Machine E} {w : Handle} {cells : Array Cell}
    (h : IntactBut old m) (body : m.dictionary.body w = .thread cells) :
    IntactBut old (m.entering w) := by
  unfold Machine.entering
  rw [forgetBlame_eq]
  exact h.enter body rfl rfl rfl rfl

/-- A native word is about to work. -/
theorem Ready.working {m : Machine E} {w : Handle} (h : Ready old m w)
    (v : Handle) : Ready old (m.working v) w := by
  unfold Machine.working
  rw [forgetBlame_eq]
  exact h.of_same rfl rfl rfl rfl

/-- Around a native word. -/
theorem invoke_intactBut {w : Handle} {x : Run E Unit} {m : Machine E}
    (inner : IntactBut old (leftBy (x { m with executing := some w }))) :
    IntactBut old (leftBy (invoke w x m)) := by
  unfold invoke
  generalize x { m with executing := some w } = r at inner
  cases r with
  | ok a after => exact inner.of_same rfl rfl rfl rfl
  | error e after =>
    cases e with
    | starved => exact inner
    | failed f =>
      dsimp only [leftBy]
      rw [captureBlame_eq]
      exact inner.of_same rfl rfl rfl rfl

/-- Around a run. -/
theorem startRun_intactBut {w : Handle} {x : Run E Unit} {m : Machine E}
    (inner : IntactBut old (leftBy (x { m with
      base := m.returns.depth, cursor := some (.start w) }))) :
    IntactBut old (leftBy (startRun w x m)) := by
  unfold startRun
  dsimp only
  generalize x { m with
    base := m.returns.depth, cursor := some (.start w) } = r at inner
  cases r with
  | ok a after => exact inner.of_idle rfl rfl (List.suffix_refl _)
  | error e after =>
    cases e with
    | starved => exact inner
    | failed f =>
      dsimp only [leftBy]
      rw [captureBlame_eq]
      exact inner.of_idle rfl rfl (List.suffix_refl _)

/-- A turn, if executing words leaves cursors intact. -/
theorem step_intactBut {call : Handle → Run E Unit} {c : Cursor}
    {m : Machine E}
    (calls : ∀ w u, Ready old u w → IntactBut old (leftBy (call w u)))
    (h : IntactBut old m) (running : m.cursor = some c) :
    IntactBut old (leftBy (step call c m)) := by
  by_cases atEnd : (m.dictionary.cells c.word).size ≤ c.index
  · rw [step_of_end call atEnd]
    exact exitThread_intactBut.run m h
  · obtain ⟨cell, present⟩ := exists_cell atEnd
    rw [step_of_cell call running present]
    cases cell with
    | word w => exact calls w _ (h.fetched running present)
    | literal v => exact (h.literal running present).of_same rfl rfl rfl rfl

/-- Executing a word and carrying on a thread, both at once since they call
each other. -/
theorem execute_loop_intactBut (n : Nat) :
    (∀ w (m : Machine .none), Ready old m w →
      IntactBut old (leftBy (execute Primitives.pure n w m))) ∧
    ∀ m : Machine .none, IntactBut old m →
      IntactBut old (leftBy (loop Primitives.pure n m)) := by
  induction n with
  | zero => exact ⟨fun _ _ h => h.toIntactBut, fun _ h => h⟩
  | succ n ih =>
    obtain ⟨executes, loops⟩ := ih
    refine ⟨fun w m ready => ?_, fun m h => ?_⟩
    · have forgot : Ready old m.forgetBlame w := by
        rw [forgetBlame_eq]
        exact ready.of_same rfl rfl rfl rfl
      rw [execute]
      dsimp only
      split
      · next b body =>
        refine invoke_intactBut ?_
        have working :
            Ready old { m.forgetBlame with executing := some w } w :=
          forgot.of_same rfl rfl rfl rfl
        show IntactBut old (leftBy (b.act (execute Primitives.pure n) _))
        by_cases isExec : b = .thread .exec
        · subst isExec
          show IntactBut old (leftBy (ThreadWord.act _ .exec _))
          rw [ThreadWord.exec_apply]
          split
          · exact working.toIntactBut
          · next v data _ =>
            exact executes v _
              ((working.of_exec body v).of_same rfl rfl rfl rfl)
          · exact working.toIntactBut.of_same rfl rfl rfl rfl
        · exact act_intactBut isExec _ _ working.toIntactBut
      · next code _ => exact code.elim
      · next cells body =>
        split
        · next c running => exact forgot.descend running body
        · exact startRun_intactBut
            (loops _ (forgot.toIntactBut.enter body rfl rfl rfl rfl))
    · cases hc : m.cursor with
      | none =>
        rw [loop_of_none _ _ hc]
        exact h
      | some c =>
        rw [loop_of_some _ _ hc]
        have turned := step_intactBut executes h hc
        generalize step (execute Primitives.pure n) c m = r at turned
        cases r with
        | ok a after => exact loops after turned
        | error e after => exact turned

/-- **Execution leaves cursors intact**, however it ends. -/
theorem execute_intactBut {w : Handle} {m : Machine .none}
    (h : Ready old m w) (n : Nat) :
    IntactBut old (leftBy (execute Primitives.pure n w m)) :=
  (execute_loop_intactBut n).1 w m h

/-- One turn of the loop. -/
theorem Turn.intactBut {m t : Machine .none}
    (turn : Turn Primitives.pure m t) (h : IntactBut old m) :
    IntactBut old t := by
  obtain ⟨n, c, running, turned⟩ := turn
  have left :=
    step_intactBut (fun w u => (execute_loop_intactBut n).1 w u) h running
  rw [turned] at left
  exact left

/-- Any number of turns. -/
theorem Reaches.intactBut {m t : Machine .none}
    (reach : Reaches Primitives.pure m t) (h : IntactBut old m) :
    IntactBut old t := by
  induction reach with
  | refl => exact h
  | tail _ turn ih => exact turn.intactBut ih

/-! ## Moments -/

/-- Whatever word comes to be executed can be. -/
theorem Comes.ready {m u : Machine .none} {w v : Handle}
    (comes : Comes m w u v) (h : Ready old m w) : Ready old u v := by
  induction comes with
  | self => exact h
  | @exec m u y w v z body popped rest ih =>
    have working : Ready old (m.working w) v := (h.of_exec body v).working w
    obtain ⟨data, rfl⟩ := eq_of_popWord popped
    exact ih (working.of_same rfl rfl rfl rfl)
  | cell body idle reach running present rest ih =>
    have atCell := Reaches.intactBut reach (h.toIntactBut.entering body)
    exact ih (atCell.fetched running present)

/-- Wherever the execution of a word leads, the cursors are intact there. -/
theorem Visits.intactBut {m x : Machine .none} {w : Handle}
    (visits : Visits m w x) (h : Ready old m w) : IntactBut old x := by
  obtain ⟨u, v, cells, comes, body, _, reach⟩ := visits
  exact Reaches.intactBut reach ((comes.ready h).toIntactBut.entering body)

/-- They are where a native word fails, too. -/
theorem Faults.intactBut {m x : Machine .none} {w : Handle} {f : Fault}
    (faults : Faults m w f x) (h : Ready old m w) : IntactBut old x := by
  cases faults with
  | @native u v b comes body acted =>
    have working := ((comes.ready h).working v).toIntactBut
    have left := (keeper_intactBut old).alone exitThread_intactBut
      finish_intactBut b _ working
    rw [acted] at left
    exact left
  | @stuck y c visits running atEnd exited =>
    have left := exitThread_intactBut y (visits.intactBut h)
    rw [exited] at left
    exact left

theorem Occurs.intactBut {m x : Machine .none} {w : Handle}
    (occurs : Occurs m w x) (h : Ready old m w) : IntactBut old x := by
  cases occurs with
  | before comes => exact (comes.ready h).toIntactBut
  | work comes body => exact ((comes.ready h).working _).toIntactBut
  | turn visits => exact visits.intactBut h
  | fault faults => exact faults.intactBut h

end Execution

/-! ## With no frames apart -/

theorem Intact.ready {m : Machine E} (h : Intact m) (idle : m.cursor = none)
    (w : Handle) : Ready [] m w :=
  (intactBut_nil_iff.mpr h).ready idle w

/-- When the execution has ended, well or not, the cursors are intact. -/
theorem execute_intact {w : Handle} {m : Machine .none} (h : Ready [] m w)
    (n : Nat) : Intact (leftBy (execute Primitives.pure n w m)) :=
  intactBut_nil_iff.mp (execute_intactBut h n)

theorem Occurs.intact {m x : Machine .none} {w : Handle}
    (occurs : Occurs m w x) (h : Ready [] m w) : Intact x :=
  intactBut_nil_iff.mp (occurs.intactBut h)

end Machine

end Forth
