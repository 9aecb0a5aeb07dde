import Forth.Proofs.Integrity
import Mathlib.Data.List.Chain

/-!
# The chain of callers

When a word fails, who was running is taken down once, at the origin of the
failure, and what is then put back on the way out does not overwrite it
(`exists_fault`).  So what is reported are the callers, the running thread
and the word at work of one single moment.

The callers of a moment form a chain.  A call puts the cursor behind the cell
that called on the return stack, and returning takes it away again, so that
each of these cursors is behind a cell with the word that the next one is in,
or behind `exec`, which was given that word (`Chained`).  A run keeps this up
turn by turn (`Turn.carries`), if it is so where the run begins, and so do
all words that come to be executed on the way (`Comes.chained`).
-/

namespace Forth.Machine

open Relation

variable {E : Embedding}

/-! ## Blame is laid once -/

/-- Whoever is to blame for what is left is who was to blame at first. -/
def SameBlame (x t : Machine .none) : Prop :=
  t.captureBlame.blame = x.captureBlame.blame

/-- Once blame is laid it stays. -/
theorem captureBlame_of_isSome {m : Machine E} (laid : m.blame.isSome = true) :
    m.captureBlame = m := by
  unfold captureBlame
  rw [if_neg]
  simp [Option.isNone_iff_eq_none, Option.isSome_iff_ne_none.mp laid]

theorem captureBlame_isSome (m : Machine E) :
    m.captureBlame.blame.isSome = true := by
  unfold captureBlame
  split
  · rfl
  · next laid => simpa [← Option.isSome_iff_ne_none] using laid

theorem unwinds_sameBlame : Unwinds SameBlame where
  origin := fun _ => rfl
  put := fun {x t} cursor base executing h => by
    have laid := captureBlame_of_isSome (m := { t.captureBlame with
      cursor := cursor
      base := base
      executing := executing }) (captureBlame_isSome t)
    unfold SameBlame
    rw [laid]
    exact h

/-- Whoever has executed a word that fails finds blame laid. -/
theorem isSome_blame_of_failed {n : Nat} {w : Handle} {m t : Machine .none}
    {f : Fault} (failed : execute Primitives.pure n w m =
      .error (.failed f) t) : t.blame.isSome = true := by
  cases n with
  | zero => cases failed
  | succ n =>
    rw [execute] at failed
    dsimp only at failed
    split at failed
    · unfold invoke at failed
      split at failed
      · cases failed
      · cases failed
        exact captureBlame_isSome _
      · cases failed
    · next code _ => exact code.elim
    · split at failed
      · cases failed
      · unfold startRun at failed
        dsimp only at failed
        split at failed
        · cases failed
        · cases failed
          exact captureBlame_isSome _
        · cases failed

/-- A failure has an origin, and it is there that blame is laid. -/
theorem exists_fault {n : Nat} {w : Handle} {m t : Machine .none} {f : Fault}
    (failed : execute Primitives.pure n w m = .error (.failed f) t) :
    ∃ z, Faults m w f z ∧ t.blame = z.captureBlame.blame := by
  obtain ⟨z, faults, same⟩ := execute_haltsBy unwinds_sameBlame failed
  have laid := captureBlame_of_isSome (isSome_blame_of_failed failed)
  unfold SameBlame at same
  rw [laid] at same
  exact ⟨z, faults, same⟩

/-! ## The chain of callers -/

/-- The threads that are running: the one that the cursor is in, and the
callers, the latest first. -/
def threads (m : Machine E) : List Cursor := m.cursor.toList ++ m.callers

/-- The cell before a cursor calls a word, by its name or through `exec`. -/
def CalledFrom (d : Dictionary E) (caller : Cursor) (callee : Handle) :
    Prop :=
  ∃ v, Behind d caller v ∧
    (v = callee ∨ d.body v = .builtin (.thread .exec))

theorem CalledFrom.extend {d d' : Dictionary E} {caller : Cursor}
    {callee : Handle} (h : CalledFrom d caller callee) (e : d.Extends d') :
    CalledFrom d' caller callee := by
  obtain ⟨v, behind, same | exec⟩ := h
  · exact ⟨v, behind.extend e, .inl same⟩
  · exact ⟨v, behind.extend e, .inr (e.builtin exec)⟩

/-- Each running thread is called from the one before. -/
def Chained (m : Machine E) : Prop :=
  m.threads.IsChain fun callee caller =>
    CalledFrom m.dictionary caller callee.word

namespace Chained

variable {m t : Machine E}

/-- No thread has lost a cell, and the same are running. -/
theorem of_extends (h : Chained m) (e : m.dictionary.Extends t.dictionary)
    (threads : t.threads = m.threads) : Chained t := by
  unfold Chained at h ⊢
  rw [threads]
  exact h.imp fun callee caller called => called.extend e

/-- The latest threads have ended. -/
theorem of_suffix (h : Chained m) (dictionary : t.dictionary = m.dictionary)
    (suffix : t.threads <:+ m.threads) : Chained t := by
  unfold Chained at h ⊢
  rw [dictionary]
  exact h.suffix suffix

/-- Nothing that matters has changed. -/
theorem of_same (h : Chained m) (dictionary : t.dictionary = m.dictionary)
    (cursor : t.cursor = m.cursor) (callers : t.callers = m.callers) :
    Chained t := by
  have same : t.threads = m.threads := by
    unfold threads
    rw [cursor, callers]
  exact h.of_suffix dictionary (same ▸ List.suffix_refl _)

/-- The running thread has come to another place. -/
theorem of_word {c c' : Cursor} (h : Chained m)
    (dictionary : t.dictionary = m.dictionary) (callers : t.callers = m.callers)
    (before : m.cursor = some c) (after : t.cursor = some c')
    (word : c'.word = c.word) : Chained t := by
  unfold Chained threads at h ⊢
  rw [before] at h
  rw [after, callers, dictionary]
  cases rest : m.callers with
  | nil => exact List.isChain_singleton _
  | cons d ds =>
    rw [rest] at h
    obtain ⟨⟨v, behind, called⟩, below⟩ := List.isChain_cons_cons.mp h
    refine List.isChain_cons_cons.mpr ⟨⟨v, behind, ?_⟩, below⟩
    rw [word]
    exact called

end Chained

/-- A thread is called. -/
theorem Chained.descend {old : List Frame} {m : Machine E} {c : Cursor}
    {w : Handle} (h : Chained m) (ready : Ready old m w)
    (running : m.cursor = some c) :
    Chained (m.descend c w) := by
  unfold Chained threads at h ⊢
  rw [running] at h
  exact List.isChain_cons_cons.mpr ⟨ready.behind c running, h⟩

theorem callers_of_popped {m : Machine E} {f : Frame} {returns : Stack Frame}
    (popped : m.returns.pop? = some (f, returns)) :
    m.callers = match f with
      | .call c => c :: { m with returns := returns }.callers
      | .value _ => { m with returns := returns }.callers := by
  unfold callers
  rw [Stack.items_of_pop? popped]
  cases f with
  | call c => rfl
  | value v => rfl

/-- Leaving a thread ends it at most. -/
theorem exitThread_chained : Keeps Chained (Act.exitThread : Act E Unit) := by
  intro m h
  rw [Act.exitThread_apply]
  split
  · exact h
  · next c running =>
    have all : m.threads = c :: m.callers := by
      unfold threads
      rw [running]
      rfl
    split
    · exact h.of_suffix rfl (all ▸ List.suffix_cons c m.callers)
    · split
      · exact h
      · next caller returns popped =>
        have rest := callers_of_popped popped
        refine h.of_suffix rfl ?_
        rw [all, rest]
        exact List.suffix_cons c _
      · next v returns popped =>
        have rest := callers_of_popped popped
        exact h.of_same rfl rfl rest.symm

/-- Being told to stop ends threads at most. -/
theorem finish_chained (m : Machine E) (h : Chained m) :
    Chained m.finish := by
  refine h.of_suffix rfl ?_
  have fewer : m.finish.callers <:+ m.callers :=
    (List.drop_suffix _ _).filterMap _
  exact fewer.trans (List.suffix_append _ _)

theorem keeper_chained : Keeper (Chained (E := E)) where
  touch := fun {m t} touch h => by
    have same := Touches.sameControl (.single touch)
    refine h.of_extends touch.extends ?_
    unfold threads
    rw [same.cursor, callers_of_returns same.returns]
  park := fun _ _ h => h.of_same rfl rfl rfl
  unpark := fun m h => by
    cases taken : StackWord.takeParked m with
    | ok v t =>
      obtain ⟨frames, same⟩ := takeParked_ok taken
      have fewer := callers_cons_value frames
      show Chained t
      rw [same] at fewer ⊢
      exact h.of_same rfl rfl fewer.symm
    | error f t =>
      obtain ⟨frames, same⟩ := takeParked_error taken
      show Chained t
      rw [same]
      refine h.of_same rfl rfl ?_
      unfold callers
      dsimp only
      rw [frames]
  fetch := fun m h => by
    rw [Act.fetchOperand_apply]
    split
    · exact h
    · next c running =>
      split
      · exact h
      · next cell c' fetched =>
        exact h.of_word rfl rfl running rfl (Cursor.fetch_word fetched)
  jump := fun offset m h => by
    rw [Act.jump_apply]
    split
    · exact h
    · next c running =>
      split
      · exact h
      · next c' jumped =>
        exact h.of_word rfl rfl running rfl (Cursor.jump_word jumped)

/-- Blame that is laid by nobody. -/
theorem keeper_blame (b : Option CallTrace) :
    Keeper fun m : Machine E => m.blame = b :=
  .of_frames (fun _ _ h => h) fun touch h => by
    cases touch <;> exact h

theorem exitThread_blame (b : Option CallTrace) :
    Keeps (fun m : Machine E => m.blame = b) Act.exitThread :=
  Keeps.exitThread fun _ _ h => h

/-! ## Turns -/

/-- What a word that is executed within a running thread does to blame and to
the chain of callers. -/
structure Carries (m : Machine .none) (w : Handle) (t : Machine .none) :
    Prop where
  blame : t.blame = m.blame
  chained : ∀ {old}, Ready old m w → Chained m → Chained t

/-- A native word, `exec` apart. -/
theorem act_carries {b : Builtin} (notExec : b ≠ .thread .exec)
    {call : Handle → Run .none Unit} {m t : Machine .none} {w : Handle}
    (done : b.act call m = .ok () t) : Carries m w t where
  blame := by
    have keeps : Keeps (fun u => u.blame = m.blame) (b.act call) :=
      (keeper_blame m.blame).act (fun _ => exitThread_blame _)
        (fun _ _ h => h) fun isExec => absurd isExec notExec
    have kept := keeps m rfl
    rw [done] at kept
    exact kept
  chained := fun _ chained => by
    have keeps : Keeps Chained (b.act call) :=
      keeper_chained.act (fun _ => exitThread_chained)
        (fun _ => finish_chained) fun isExec => absurd isExec notExec
    have kept := keeps m chained
    rw [done] at kept
    exact kept

theorem execute_carries (n : Nat) {c : Cursor} {w : Handle}
    {m t : Machine .none} (running : m.cursor = some c)
    (done : execute Primitives.pure n w m = .ok () t) : Carries m w t := by
  induction n generalizing w m t with
  | zero => cases done
  | succ n ih =>
    rw [execute] at done
    dsimp only at done
    rw [forgetBlame_of_running (by simp [running])] at done
    split at done
    · next b body =>
      obtain ⟨u, acted, rfl⟩ := invoke_ok done
      have back {m' : Machine .none} {v : Handle} (carries : Carries m' v u)
          (blame : m'.blame = m.blame)
          (ready : ∀ {old}, Ready old m w → Ready old m' v)
          (chained : Chained m → Chained m') :
          Carries m w { u with executing := m.executing } :=
        ⟨carries.blame.trans blame, fun before chain =>
          (carries.chained (ready before) (chained chain)).of_same rfl rfl
            rfl⟩
      by_cases isExec : b = .thread .exec
      · subst isExec
        replace acted : ThreadWord.act (execute Primitives.pure n) .exec
          { m with executing := some w } = .ok () u := acted
        rw [ThreadWord.exec_apply] at acted
        split at acted
        · cases acted
        · next v data _ =>
          have inner := ih (w := v)
            (m := { m with executing := some w, data := data }) running acted
          refine back inner rfl (fun ready => ?_) fun chain => ?_
          · exact (ready.of_exec body v).of_same rfl rfl rfl rfl
          · exact chain.of_same rfl rfl rfl
        · cases acted
      · refine back (act_carries (w := w) isExec acted) rfl (fun ready => ?_)
          fun chain => ?_
        · exact ready.of_same rfl rfl rfl rfl
        · exact chain.of_same rfl rfl rfl
    · next code _ => exact code.elim
    · rw [running] at done
      cases done
      exact ⟨rfl, fun ready chain => chain.descend ready running⟩

/-- The cell that is fetched changes neither. -/
theorem Chained.fetched {m : Machine E} {c : Cursor} (h : Chained m)
    (running : m.cursor = some c) (cell : Cell) :
    Chained (m.fetched c cell) := by
  rw [fetched_eq]
  exact h.of_word rfl rfl running rfl rfl

/-- **A turn.** -/
theorem Turn.carries {m t : Machine .none} (turn : Turn Primitives.pure m t) :
    t.blame = m.blame ∧ ∀ old, IntactBut old m → Chained m → Chained t := by
  obtain ⟨n, c, running, turned⟩ := turn
  rcases step_ok running turned with ⟨_, exited⟩ | ⟨cell, present, rest⟩
  · constructor
    · have kept := exitThread_blame m.blame m rfl
      rw [exited] at kept
      exact kept
    · intro _ _ chained
      have kept := exitThread_chained m chained
      rw [exited] at kept
      exact kept
  · have running' : (m.fetched c cell).cursor =
        some ⟨c.word, c.index + 1⟩ := by
      rw [fetched_eq]
    have blame : (m.fetched c cell).blame = m.blame := by
      rw [fetched_eq]
    cases cell with
    | word w =>
      have carries := execute_carries n running' rest
      refine ⟨carries.blame.trans blame, fun _ intact chained => ?_⟩
      exact carries.chained (intact.fetched running present)
        (chained.fetched running _)
    | literal v =>
      subst rest
      refine ⟨blame, fun _ _ chained => ?_⟩
      exact (chained.fetched running (.literal v)).of_same rfl rfl rfl

/-- A row of turns. -/
theorem Reaches.carries {m t : Machine .none}
    (reach : Reaches Primitives.pure m t) :
    t.blame = m.blame ∧ ∀ old, IntactBut old m → Chained m → Chained t := by
  induction reach with
  | refl => exact ⟨rfl, fun _ _ h => h⟩
  | tail reach turn ih =>
    obtain ⟨blame, chained⟩ := Turn.carries turn
    refine ⟨blame.trans ih.1, fun old intact chain => ?_⟩
    exact chained old (Reaches.intactBut reach intact)
      (ih.2 old intact chain)

/-! ## From the word that is executed to the one that fails -/

theorem Reaches.grows {m t : Machine .none}
    (reach : Reaches Primitives.pure m t) : Grows m t := by
  induction reach with
  | refl => exact .refl
  | @tail u t _ turn ih =>
    obtain ⟨n, c, _, turned⟩ := turn
    have grown := Growing.step (execute_grows n) c u
    rw [turned] at grown
    exact ih.trans grown

theorem grows_fetched (m : Machine E) (c : Cursor) (cell : Cell) :
    Grows m (m.fetched c cell) := by
  have moved : Grow m { m with cursor := some ⟨c.word, c.index + 1⟩ } :=
    .control m _ _ _ _ _ _ _
  rw [fetched_eq]
  exact .tail (.single moved) (.touch (.aside _ _ _ _ _ _ _ _))

/-- Whatever comes to be executed is executed in a machine that has grown. -/
theorem Comes.grows {m u : Machine .none} {w v : Handle}
    (comes : Comes m w u v) : Grows m u := by
  induction comes with
  | self => exact .refl
  | @exec m u y w v z body popped _ ih =>
    obtain ⟨data, rfl⟩ := eq_of_popWord popped
    have works : Grows m (m.working w) :=
      (grows_forgetBlame m).tail (.control _ _ _ _ _ _ _ _)
    exact (works.tail (.touch (.aside _ data _ _ _ _ _ _))).trans ih
  | @cell m x y w v z cells c body idle reach running present _ ih =>
    have enters : Grows m (m.entering w) :=
      (grows_forgetBlame m).tail (.control _ _ _ _ _ _ _ _)
    have fetches := grows_fetched x c (.word v)
    exact ((enters.trans (Reaches.grows reach)).trans fetches).trans ih

/-- With nothing running, and so at any time before a failure, nobody is to
blame. -/
theorem Comes.blameless {m u : Machine .none} {w v : Handle}
    (comes : Comes m w u v) (h : m.forgetBlame.blame = none) :
    u.forgetBlame.blame = none := by
  have later {t : Machine .none} (blameless : t.blame = none) :
      t.forgetBlame.blame = none := by
    unfold forgetBlame
    split
    · rfl
    · exact blameless
  induction comes with
  | self => exact h
  | exec body popped _ ih =>
    obtain ⟨data, rfl⟩ := eq_of_popWord popped
    exact ih (later h)
  | cell body idle reach running present _ ih =>
    refine ih (later ?_)
    rw [fetched_eq]
    exact (Reaches.carries reach).1.trans h

/-- The chain of callers, from the beginning of a run with no call on the
return stack. -/
theorem Comes.chained {old : List Frame} {m u : Machine .none}
    {w v : Handle} (comes : Comes m w u v) (ready : Ready old m w)
    (chained : Chained m) (fresh : m.cursor = none → m.callers = []) :
    Chained u := by
  induction comes with
  | self => exact chained
  | @exec m u y w v z body popped _ ih =>
    obtain ⟨data, rfl⟩ := eq_of_popWord popped
    have forgot : m.forgetBlame.dictionary = m.dictionary ∧
        m.forgetBlame.cursor = m.cursor ∧
        m.forgetBlame.returns = m.returns ∧
        m.forgetBlame.base = m.base := by
      rw [forgetBlame_eq]
      exact ⟨rfl, rfl, rfl, rfl⟩
    obtain ⟨dictionary, cursor, returns, base⟩ := forgot
    have callers : m.forgetBlame.callers = m.callers :=
      callers_of_returns returns
    refine ih ?_ ?_ fun idle => ?_
    · exact (ready.of_exec body v).of_same dictionary cursor returns base
    · exact chained.of_same dictionary cursor callers
    · exact callers.trans (fresh (cursor.symm.trans idle))
  | @cell m x y w v z cells c body idle reach running present _ ih =>
    have entered : Chained (m.entering w) := by
      have none : (m.entering w).callers = [] := by
        rw [← fresh idle]
        refine callers_of_returns ?_
        unfold entering
        rw [forgetBlame_eq]
      unfold Chained threads
      rw [none]
      exact List.isChain_singleton _
    have intact := ready.toIntactBut.entering body
    have atCell := Reaches.intactBut reach intact
    refine ih (atCell.fetched running present) ?_ fun idle => ?_
    · exact ((Reaches.carries reach).2 old intact entered).fetched running _
    · rw [fetched_eq] at idle
      cases idle

end Forth.Machine
