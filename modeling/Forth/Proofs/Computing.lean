import Forth.Proofs.Calls
import Forth.Proofs.Stocked

/-!
# Words that only compute

Some words see and change nothing but values: the data stack, the variables
and the output.  They are the plain built-in words, and the threads that are
made of such words, of values, and of the words that steer through a thread.
A word is **understood** if it is in some set of words that is closed in this
sense (`Closed`, `Understood`), so words that call themselves are among them.

Whether such a word is executed at top level or called from a thread, and
which other words there are, makes no difference to the values.  Two machines
run side by side: one executes the word at top level, the other calls it from
a thread that goes on at a place `back`.

* While the word runs, the machines stand at the same cell, and the second
  has the call of that thread between the calls of the first and what was on
  the return stack before (`Shadows`).  One turn of the one is one turn of the
  other (`turn_matches`).
* When it is done, the first runs no thread and the second is back
  (`Paired`).

Main statement: `word_echoes`.
-/

namespace Forth

variable {E : Embedding}

/-- The words that steer through the thread in which they stand. -/
def ThreadWord.steers : ThreadWord → Bool
  | exec | bye => false
  | _ => true

namespace Machine

/-! ## Values -/

/-- Machines with the same values: on the data stack, in the variables and in
what has been written. -/
structure SameValues (a b : Machine E) : Prop where
  data : b.data = a.data
  memory : b.memory = a.memory
  output : b.output = a.output

theorem SameValues.trans {a b c : Machine E} (h : SameValues a b)
    (h' : SameValues b c) : SameValues a c :=
  ⟨h'.data.trans h.data, h'.memory.trans h.memory, h'.output.trans h.output⟩

/-- What there is to read is no matter. -/
theorem SameValues.withInput {a b : Machine E} (h : SameValues a b)
    (input : Source) : SameValues { a with input := input } b :=
  ⟨h.data, h.memory, h.output⟩

/-- All that has changed is values, who is at work and what was noted. -/
def Computed (a a' : Machine E) : Prop :=
  ∃ data memory output executing blame events, a' = { a with
    data := data
    memory := memory
    output := output
    executing := executing
    blame := blame
    events := events }

/-- A relation between machines with the same values that computing does not
disturb. -/
structure ValueRelation (S : Machine E → Machine E → Prop) : Prop where
  same : ∀ {a b}, S a b → SameValues a b
  closed : ∀ {a b a' b'}, S a b → Computed a a' → Computed b b' →
    SameValues a' b' → S a' b'

/-- A native word is at work in two related machines. -/
def Busy (w : Handle) (S : Machine E → Machine E → Prop)
    (a b : Machine E) : Prop :=
  S a b ∧ a.executing = some w ∧ b.executing = some w

/-- Only starving is excused. -/
def Starved (e : Halt Fault) : Prop := e = .starved

section ValueRelation

variable {S T : Machine E → Machine E → Prop} {w : Handle}

theorem ValueRelation.or (s : ValueRelation S) (t : ValueRelation T) :
    ValueRelation fun a b => S a b ∨ T a b where
  same := fun h => h.elim s.same t.same
  closed := fun h ca cb same =>
    h.imp (s.closed · ca cb same) (t.closed · ca cb same)

/-- With the same word at work on both sides, moving values disturbs
nothing. -/
theorem ValueRelation.congruence (r : ValueRelation S) (w : Handle) :
    ValueCongruence (Busy w S) fun _ => False where
  executingName := fun ⟨_, busy, busy'⟩ => by
    unfold executingName
    rw [busy, busy']
  memory := fun ⟨h, _⟩ => (r.same h).memory
  push := fun v a b ⟨h, busy, busy'⟩ => by
    obtain ⟨data, memory, output⟩ := r.same h
    show Matches _ _ (.ok () { a with data := a.data.push v })
      (.ok () { b with data := b.data.push v })
    exact .ok ⟨r.closed h ⟨_, _, _, _, _, _, rfl⟩ ⟨_, _, _, _, _, _, rfl⟩
      ⟨congrArg (Stack.push · v) data, memory, output⟩, busy, busy'⟩
  pop := fun a b ⟨h, busy, busy'⟩ => by
    obtain ⟨data, memory, output⟩ := r.same h
    rw [Act.pop_apply, Act.pop_apply, data]
    cases a.data.pop? with
    | none => exact .error ⟨h, busy, busy'⟩
    | some top =>
      exact .ok ⟨r.closed h ⟨_, _, _, _, _, _, rfl⟩ ⟨_, _, _, _, _, _, rfl⟩
        ⟨rfl, memory, output⟩, busy, busy'⟩
  peek := fun n a b ⟨h, busy, busy'⟩ => by
    obtain ⟨data, memory, output⟩ := r.same h
    rw [Act.peek_apply, Act.peek_apply, data]
    cases a.data.peek? n with
    | none => exact .error ⟨h, busy, busy'⟩
    | some v => exact .ok ⟨h, busy, busy'⟩
  write := fun text a b ⟨h, busy, busy'⟩ => by
    obtain ⟨data, memory, output⟩ := r.same h
    have blamed : b.executingName = a.executingName := by
      unfold executingName
      rw [busy, busy']
    rw [Act.write_apply, Act.write_apply, output, blamed]
    cases a.output.write? text with
    | none => exact .error ⟨h, busy, busy'⟩
    | some written =>
      exact .ok ⟨r.closed h ⟨_, _, _, _, _, _, rfl⟩ ⟨_, _, _, _, _, _, rfl⟩
        ⟨data, memory, rfl⟩, busy, busy'⟩
  setVariable := fun name v a b ⟨h, busy, busy'⟩ => by
    obtain ⟨data, memory, output⟩ := r.same h
    show Matches _ _ (.ok () { a with memory := a.memory.insert name v })
      (.ok () { b with memory := b.memory.insert name v })
    exact .ok ⟨r.closed h ⟨_, _, _, _, _, _, rfl⟩ ⟨_, _, _, _, _, _, rfl⟩
      ⟨data, congrArg (Table.insert · name v) memory, output⟩, busy, busy'⟩

/-- Plain words do the same on both sides. -/
theorem ValueRelation.plain (r : ValueRelation S) {b : Builtin}
    (plain : b.isPlain = true) (f g : Handle → Run E Unit) :
    Follows (Busy w S) Starved (b.act f) (b.act g) :=
  (r.congruence w).act (fun _ _ h => (r.same h.1).data)
    (fun _ never => never.elim) f g plain

/-- A native word is executed on both sides, and leads from one relation to
another. -/
theorem ValueRelation.invoke (s : ValueRelation S) (t : ValueRelation T)
    {x y : Run E Unit} {a b : Machine E} (h : S a b)
    (does : ∀ a b, Busy w S a b → Matches T Starved (x a) (y b)) :
    Matches T Starved (invoke w x a) (invoke w y b) := by
  obtain ⟨data, memory, output⟩ := s.same h
  have busy : Busy w S { a with executing := some w }
      { b with executing := some w } :=
    ⟨s.closed h ⟨_, _, _, _, _, _, rfl⟩ ⟨_, _, _, _, _, _, rfl⟩
      ⟨data, memory, output⟩, rfl, rfl⟩
  have matched := does _ _ busy
  unfold Machine.invoke
  generalize x { a with executing := some w } = p at matched
  generalize y { b with executing := some w } = q at matched
  cases matched with
  | ok related =>
    obtain ⟨data, memory, output⟩ := t.same related
    exact .ok (t.closed related ⟨_, _, _, _, _, _, rfl⟩
      ⟨_, _, _, _, _, _, rfl⟩ ⟨data, memory, output⟩)
  | @error e a' b' related =>
    obtain ⟨data, memory, output⟩ := t.same related
    cases e with
    | starved => exact .error related
    | failed f =>
      dsimp only
      rw [captureBlame_eq a', captureBlame_eq b']
      exact .error (t.closed related ⟨_, _, _, _, _, _, rfl⟩
        ⟨_, _, _, _, _, _, rfl⟩ ⟨data, memory, output⟩)
  | excused fine =>
    cases fine
    exact .excused rfl

end ValueRelation

/-! ## A vocabulary -/

section Vocabulary

variable (d : Dictionary .none) (D : Handle → Prop)

/-- A cell that can stand in a thread of the vocabulary: a value, a word of
the vocabulary, or a word that steers. -/
def Fits : Cell → Prop
  | .literal _ => True
  | .word w => D w ∨ ∃ word s, d.word? w = some word ∧
      word.body = .builtin (.thread s) ∧ s.steers = true

/-- A word is plain, or a thread of fitting cells that is not immediate. -/
inductive Spoken (w : Handle) : Prop
  | plain {word : Word .none} {b : Builtin} (present : d.word? w = some word)
      (body : word.body = .builtin b) (isPlain : b.isPlain = true)
  | thread {word : Word .none} {cells : Array Cell}
      (present : d.word? w = some word) (body : word.body = .thread cells)
      (normal : word.immediate = false)
      (fits : ∀ c ∈ cells.toList, Fits d D c)

/-- A set of words that needs no others. -/
def Closed : Prop := ∀ w, D w → Spoken d D w

/-- The words of all such sets. -/
def Understood (w : Handle) : Prop := ∃ D, Closed d D ∧ D w

end Vocabulary

section Understood

variable {d d' : Dictionary .none} {w : Handle}

theorem Spoken.mono {D D' : Handle → Prop} (h : Spoken d D w)
    (more : ∀ v, D v → D' v) : Spoken d D' w := by
  cases h with
  | plain present body isPlain => exact .plain present body isPlain
  | thread present body normal fits =>
    refine .thread present body normal fun c mem => ?_
    have fit := fits c mem
    cases c with
    | literal v => trivial
    | word v => exact fit.imp_left (more v)

/-- The words that are understood are such a set themselves. -/
theorem understood_closed : Closed d (Understood d) := by
  rintro w ⟨D, closed, mem⟩
  exact (closed w mem).mono fun v hv => ⟨D, closed, hv⟩

/-- Whether a cell is a value, one of these words, or a word that steers. -/
def fitsAmong (d : Dictionary .none) (words : List Handle) : Cell → Bool
  | .literal _ => true
  | .word w => words.contains w || (d.word? w).any fun word =>
      match word.body with
      | .builtin (.thread s) => s.steers
      | _ => false

/-- Whether a word needs no others than these. -/
def spokenAmong (d : Dictionary .none) (words : List Handle) (w : Handle) :
    Bool :=
  (d.word? w).any fun word => match word.body with
    | .builtin b => b.isPlain
    | .thread cells =>
      !word.immediate && cells.toList.all (fitsAmong d words)

theorem fits_of_fitsAmong {words : List Handle} {c : Cell}
    (h : fitsAmong d words c = true) : Fits d (· ∈ words) c := by
  cases c with
  | literal v => trivial
  | word w =>
    simp only [fitsAmong, Bool.or_eq_true, List.contains_iff_mem,
      Option.any_eq_true] at h
    refine h.imp_right ?_
    rintro ⟨word, present, steers⟩
    split at steers
    · next s body => exact ⟨word, s, present, body, steers⟩
    · cases steers

/-- Words of a list that need no others are understood. -/
theorem understood_of_all {words : List Handle}
    (h : words.all (spokenAmong d words) = true) (mem : w ∈ words) :
    Understood d w := by
  refine ⟨(· ∈ words), fun v hv => ?_, mem⟩
  have spoken := List.all_eq_true.1 h v hv
  obtain ⟨word, present, test⟩ := (Option.any_eq_true _ _).1 spoken
  split at test
  · next b body => exact .plain present body test
  · next cells body =>
    rw [Bool.and_eq_true, Bool.not_eq_true', List.all_eq_true] at test
    exact .thread present body test.1 fun c hc =>
      fits_of_fitsAmong (test.2 c hc)

/-- The words of one dictionary are those of another, too. -/
def Older (d d' : Dictionary .none) : Prop :=
  ∀ w word, d.word? w = some word → d'.word? w = some word

theorem Older.body (h : Older d d') {word : Word .none}
    (present : d.word? w = some word) :
    d.body w = word.body ∧ d'.body w = word.body := by
  unfold Dictionary.body
  rw [present, h w word present]
  exact ⟨rfl, rfl⟩

theorem Older.cells (h : Older d d') (understood : Understood d w) :
    d'.cells w = d.cells w := by
  obtain ⟨word, present⟩ : ∃ word, d.word? w = some word := by
    cases understood_closed w understood with
    | plain present _ _ => exact ⟨_, present⟩
    | thread present _ _ _ => exact ⟨_, present⟩
  unfold Dictionary.cells
  rw [present, h w word present]

theorem Understood.fits (h : Understood d w) :
    ∀ c ∈ (d.cells w).toList, Fits d (Understood d) c := by
  intro c mem
  cases understood_closed w h with
  | @plain word b present body _ =>
    have empty : d.cells w = #[] := by
      unfold Dictionary.cells
      rw [present]
      unfold Word.cells?
      simp [body]
    rw [empty] at mem
    cases mem
  | @thread word cells present body _ fits =>
    have thread : d.body w = .thread cells := by
      unfold Dictionary.body
      rw [present]
      exact body
    rw [Dictionary.cells_of_thread thread] at mem
    exact fits c mem

end Understood

/-! ## Side by side -/

/-- What computing leaves alone, besides control. -/
structure Steady (a₀ a : Machine E) : Prop where
  dictionary : a.dictionary = a₀.dictionary
  builtins : a.builtins = a₀.builtins
  underConstruction : a.underConstruction = a₀.underConstruction
  interpreting : a.interpreting = a₀.interpreting
  finished : a.finished = a₀.finished
  input : a.input = a₀.input

theorem Steady.refl (a : Machine E) : Steady a a :=
  ⟨rfl, rfl, rfl, rfl, rfl, rfl⟩

theorem Steady.trans {a b c : Machine E} (h : Steady a b)
    (h' : Steady b c) : Steady a c :=
  ⟨h'.1.trans h.1, h'.2.trans h.2, h'.3.trans h.3, h'.4.trans h.4,
    h'.5.trans h.5, h'.6.trans h.6⟩

theorem Computed.steady {a a' : Machine E} (h : Computed a a') :
    Steady a a' := by
  obtain ⟨_, _, _, _, _, _, rfl⟩ := h
  exact ⟨rfl, rfl, rfl, rfl, rfl, rfl⟩

/-- The machine `a` is at top level, and `b` in a thread at some place, with
the same on the return stacks. -/
structure Paired (a₀ b₀ : Machine .none) (place : Cursor)
    (a b : Machine .none) : Prop extends SameValues a b where
  lead : Steady a₀ a
  trail : Steady b₀ b
  idle : a.cursor = none
  running : b.cursor = some place
  returns : a.returns.items = a₀.returns.items
  returns' : b.returns.items = a₀.returns.items
  base : b.base = a₀.returns.items.length

/-- Both machines are in a thread, at the same cell.  The second has a call
from `back` below the calls of the first. -/
structure Shadows (a₀ b₀ : Machine .none) (back : Cursor)
    (a b : Machine .none) : Prop extends SameValues a b where
  lead : Steady a₀ a
  trail : Steady b₀ b
  running : ∃ c, a.cursor = some c ∧ b.cursor = some c ∧
    Understood a₀.dictionary c.word
  frames : ∃ calls : List Cursor,
    a.returns.items = calls.map .call ++ a₀.returns.items ∧
    b.returns.items = calls.map .call ++ .call back :: a₀.returns.items ∧
    ∀ c ∈ calls, Understood a₀.dictionary c.word
  base : a.base = a₀.returns.items.length
  base' : b.base = a₀.returns.items.length

section Sides

variable {a₀ b₀ : Machine .none} {place back : Cursor}

theorem paired_relation : ValueRelation (Paired a₀ b₀ place) where
  same := fun h => h.toSameValues
  closed := fun h ca cb same => by
    have lead := h.lead.trans ca.steady
    have trail := h.trail.trans cb.steady
    obtain ⟨_, _, _, _, _, _, rfl⟩ := ca
    obtain ⟨_, _, _, _, _, _, rfl⟩ := cb
    exact { h with toSameValues := same, lead := lead, trail := trail }

theorem shadows_relation : ValueRelation (Shadows a₀ b₀ back) where
  same := fun h => h.toSameValues
  closed := fun h ca cb same => by
    have lead := h.lead.trans ca.steady
    have trail := h.trail.trans cb.steady
    obtain ⟨_, _, _, _, _, _, rfl⟩ := ca
    obtain ⟨_, _, _, _, _, _, rfl⟩ := cb
    exact { h with toSameValues := same, lead := lead, trail := trail }

variable {a b : Machine .none}

/-- Both cursors move within their thread. -/
theorem Shadows.moves {c c' : Cursor} (h : Shadows a₀ b₀ back a b)
    (running : a.cursor = some c) (word : c'.word = c.word) :
    Shadows a₀ b₀ back { a with cursor := some c' }
      { b with cursor := some c' } := by
  obtain ⟨d, running', _, understood⟩ := h.running
  cases running.symm.trans running'
  exact
    { h with
      lead := { h.lead with }
      trail := { h.trail with }
      running := ⟨c', rfl, rfl, word ▸ understood⟩ }

/-- The threads are the same on both sides. -/
theorem Shadows.cells {c : Cursor} (h : Shadows a₀ b₀ back a b)
    (older : Older a₀.dictionary b₀.dictionary)
    (running : a.cursor = some c) :
    b.cursor = some c ∧
      b.dictionary.cells c.word = a.dictionary.cells c.word ∧
      Understood a₀.dictionary c.word := by
  obtain ⟨d, here, here', understood⟩ := h.running
  cases running.symm.trans here
  refine ⟨here', ?_, understood⟩
  rw [h.lead.dictionary, h.trail.dictionary]
  exact older.cells understood

/-! ## Words that steer -/

section Steering

variable {w : Handle} (older : Older a₀.dictionary b₀.dictionary)

include older

/-- Reading the running thread. -/
theorem fetchOperand_follows :
    Follows (Busy w (Shadows a₀ b₀ back)) (fun _ => False)
      Act.fetchOperand Act.fetchOperand := by
  rintro a b ⟨h, busy, busy'⟩
  obtain ⟨c, running, _⟩ := h.running
  obtain ⟨running', cells, _⟩ := h.cells older running
  rw [Act.fetchOperand_apply, Act.fetchOperand_apply, running, running']
  dsimp only
  rw [cells]
  cases fetched : c.fetch (a.dictionary.cells c.word) with
  | error f => exact .error ⟨h, busy, busy'⟩
  | ok p =>
    exact .ok ⟨h.moves running (Cursor.fetch_word fetched), busy, busy'⟩

/-- Jumping in it. -/
theorem jump_follows (offset : Int64) :
    Follows (Busy w (Shadows a₀ b₀ back)) (fun _ => False)
      (Act.jump offset) (Act.jump offset) := by
  rintro a b ⟨h, busy, busy'⟩
  obtain ⟨c, running, _⟩ := h.running
  obtain ⟨running', cells, _⟩ := h.cells older running
  rw [Act.jump_apply, Act.jump_apply, running, running']
  dsimp only
  rw [cells]
  cases jumped : c.jump (a.dictionary.cells c.word).size offset with
  | error f => exact .error ⟨h, busy, busy'⟩
  | ok c' =>
    exact .ok ⟨h.moves running (Cursor.jump_word jumped), busy, busy'⟩

/-- Words that steer do the same on both sides, `exit` apart. -/
theorem steers_follow {s : ThreadWord} (steers : s.steers = true)
    (notExit : s ≠ .exit) (f g : Handle → Run .none Unit) :
    Follows (Busy w (Shadows a₀ b₀ back)) Starved (s.act f) (s.act g) := by
  have relation : ValueRelation (Shadows a₀ b₀ back) := shadows_relation
  have k := relation.congruence w
  have fetch : Follows (Busy w (Shadows a₀ b₀ back)) (fun _ => False)
      Act.fetchOperand Act.fetchOperand := fetchOperand_follows older
  have offset : Follows (Busy w (Shadows a₀ b₀ back)) (fun _ => False)
      ThreadWord.fetchOffset ThreadWord.fetchOffset := by
    refine fetch.bind fun c => ?_
    split
    · exact Follows.pure _
    · exact k.fail _
  have pardon : ∀ f : Fault, False → Starved (.failed f) :=
    fun _ never => never.elim
  cases s with
  | lit | tick => exact (fetch.bind fun _ => k.push _).run pardon
  | branch => exact (offset.bind fun n => jump_follows older n).run pardon
  | zeroBranch =>
    refine (k.popTruth.bind fun condition => offset.bind fun n => ?_).run
      pardon
    cases condition with
    | true => exact Follows.pure _
    | false => exact jump_follows older n
  | exit => exact absurd rfl notExit
  | exec | bye => cases steers

end Steering

/-- The word that is executed goes on, or it is done. -/
def Ongoing (a₀ b₀ : Machine .none) (back : Cursor)
    (a b : Machine .none) : Prop :=
  Shadows a₀ b₀ back a b ∨ Paired a₀ b₀ back a b

theorem ongoing_relation : ValueRelation (Ongoing a₀ b₀ back) :=
  shadows_relation.or paired_relation

/-- **A thread exits.**  Both machines go back to the same caller, or the
first is done and the second goes back to the thread below. -/
theorem exitThread_matches (h : Shadows a₀ b₀ back a b) :
    Matches (Ongoing a₀ b₀ back) Starved (Act.exitThread.run a)
      (Act.exitThread.run b) := by
  obtain ⟨c, running, running', _⟩ := h.running
  obtain ⟨calls, frames, frames', understood⟩ := h.frames
  have lead := h.lead
  have trail := h.trail
  rw [Act.run_apply, Act.run_apply, Act.exitThread_apply,
    Act.exitThread_apply, running, running']
  dsimp only
  cases calls with
  | nil =>
    replace frames : a.returns.items = a₀.returns.items := frames
    replace frames' : b.returns.items =
      .call back :: a₀.returns.items := frames'
    have low : a.returns.depth = a.base := by
      rw [a.returns.depth_eq, frames, h.base]
    have above : ¬ b.returns.depth ≤ b.base := by
      rw [b.returns.depth_eq, frames', h.base', List.length_cons]
      omega
    obtain ⟨returns, popped, below⟩ := Stack.pop?_of_cons frames'
    rw [if_pos (Nat.le_of_eq low), if_neg above, popped]
    exact .ok (.inr
      { toSameValues := ⟨h.data, h.memory, h.output⟩
        lead := { lead with }
        trail := { trail with }
        idle := rfl
        running := rfl
        returns := frames
        returns' := below
        base := h.base' })
  | cons caller calls =>
    replace frames : a.returns.items =
      .call caller :: (calls.map .call ++ a₀.returns.items) := frames
    replace frames' : b.returns.items =
      .call caller :: (calls.map .call ++ .call back :: a₀.returns.items) :=
      frames'
    have above : ¬ a.returns.depth ≤ a.base := by
      rw [a.returns.depth_eq, frames, h.base, List.length_cons,
        List.length_append]
      omega
    have above' : ¬ b.returns.depth ≤ b.base := by
      rw [b.returns.depth_eq, frames', h.base', List.length_cons,
        List.length_append, List.length_cons]
      omega
    obtain ⟨returns, popped, below⟩ := Stack.pop?_of_cons frames
    obtain ⟨returns', popped', below'⟩ := Stack.pop?_of_cons frames'
    rw [if_neg above, if_neg above', popped, popped']
    exact .ok (.inl
      { toSameValues := ⟨h.data, h.memory, h.output⟩
        lead := { lead with }
        trail := { trail with }
        running := ⟨caller, rfl, rfl, understood caller List.mem_cons_self⟩
        frames := ⟨calls, below, below', fun d mem =>
          understood d (List.mem_cons_of_mem _ mem)⟩
        base := h.base
        base' := h.base' })

/-! ## Turns -/

/-- A thread is called on both sides. -/
theorem Shadows.descend {c : Cursor} {w : Handle}
    (h : Shadows a₀ b₀ back a b) (running : a.cursor = some c)
    (understood : Understood a₀.dictionary w) :
    Shadows a₀ b₀ back (a.descend c w) (b.descend c w) := by
  obtain ⟨d, here, _, inThread⟩ := h.running
  cases running.symm.trans here
  obtain ⟨calls, frames, frames', known⟩ := h.frames
  have lead := h.lead
  have trail := h.trail
  refine
    { toSameValues := ⟨h.data, h.memory, h.output⟩
      lead := { lead with }
      trail := { trail with }
      running := ⟨.start w, rfl, rfl, understood⟩
      frames := ⟨c :: calls, congrArg (List.cons (Frame.call c)) frames,
        congrArg (List.cons (Frame.call c)) frames', ?_⟩
      base := h.base
      base' := h.base' }
  intro e mem
  rcases List.mem_cons.1 mem with rfl | old
  · exact inThread
  · exact known e old

/-- A word in a thread is executed on both sides. -/
theorem execute_matches (older : Older a₀.dictionary b₀.dictionary) (n : Nat)
    {w : Handle} (h : Shadows a₀ b₀ back a b)
    (fits : Fits a₀.dictionary (Understood a₀.dictionary) (.word w)) :
    Matches (Ongoing a₀ b₀ back) Starved (execute Primitives.pure n w a)
      (execute Primitives.pure n w b) := by
  cases n with
  | zero => exact .excused rfl
  | succ n =>
    obtain ⟨c, running, running', _⟩ := h.running
    have bodies {word : Word .none}
        (present : a₀.dictionary.word? w = some word) :
        a.dictionary.body w = word.body ∧ b.dictionary.body w = word.body := by
      rw [h.lead.dictionary, h.trail.dictionary]
      exact older.body present
    have native {x : Builtin} (body : a.dictionary.body w = .builtin x)
        (body' : b.dictionary.body w = .builtin x)
        (does : ∀ a b, Busy w (Shadows a₀ b₀ back) a b →
          Matches (Ongoing a₀ b₀ back) Starved
            (x.act (execute Primitives.pure n) a)
            (x.act (execute Primitives.pure n) b)) :
        Matches (Ongoing a₀ b₀ back) Starved
          (execute Primitives.pure (n + 1) w a)
          (execute Primitives.pure (n + 1) w b) := by
      rw [execute_native n (by simp [running]) body,
        execute_native n (by simp [running']) body']
      exact shadows_relation.invoke ongoing_relation h does
    have ongoing {r s : EStateM.Result (Halt Fault) (Machine .none) Unit}
        (matched : Matches (Busy w (Shadows a₀ b₀ back)) Starved r s) :
        Matches (Ongoing a₀ b₀ back) Starved r s :=
      matched.mono (fun _ _ busy => .inl busy.1) fun _ starved => starved
    rcases fits with understood | ⟨word, s, present, body, steers⟩
    · cases understood_closed w understood with
      | @plain word x present body isPlain =>
        obtain ⟨body₁, body₂⟩ := bodies present
        exact native (body₁.trans body) (body₂.trans body) fun a b busy =>
          ongoing (shadows_relation.plain isPlain _ _ a b busy)
      | thread present body =>
        obtain ⟨body₁, body₂⟩ := bodies present
        rw [execute_thread n running (body₁.trans body),
          execute_thread n running' (body₂.trans body)]
        exact .ok (.inl (h.descend running understood))
    · obtain ⟨body₁, body₂⟩ := bodies present
      refine native (body₁.trans body) (body₂.trans body) fun a b busy => ?_
      by_cases isExit : s = .exit
      · subst isExit
        exact exitThread_matches busy.1
      · exact ongoing (steers_follow older steers isExit _ _ a b busy)

/-- A cell is fetched on both sides. -/
theorem Shadows.fetched {c : Cursor} (h : Shadows a₀ b₀ back a b)
    (running : a.cursor = some c) (cell : Cell) :
    Shadows a₀ b₀ back (a.fetched c cell) (b.fetched c cell) := by
  have moved : Shadows a₀ b₀ back
      { a with cursor := some ⟨c.word, c.index + 1⟩ }
      { b with cursor := some ⟨c.word, c.index + 1⟩ } := h.moves running rfl
  rw [fetched_eq a, fetched_eq b]
  exact shadows_relation.closed moved ⟨_, _, _, _, _, _, rfl⟩
    ⟨_, _, _, _, _, _, rfl⟩ ⟨h.data, h.memory, h.output⟩

/-- **One turn of the one is one turn of the other.** -/
theorem turn_matches (older : Older a₀.dictionary b₀.dictionary) (n : Nat)
    {c : Cursor} (h : Shadows a₀ b₀ back a b) (running : a.cursor = some c) :
    Matches (Ongoing a₀ b₀ back) Starved
      (step (execute Primitives.pure n) c a)
      (step (execute Primitives.pure n) c b) := by
  obtain ⟨running', cells, understood⟩ := h.cells older running
  by_cases atEnd : (a.dictionary.cells c.word).size ≤ c.index
  · rw [step_of_end _ atEnd, step_of_end _ (cells ▸ atEnd)]
    exact exitThread_matches h
  · obtain ⟨cell, present⟩ := exists_cell atEnd
    have mem : cell ∈ (a₀.dictionary.cells c.word).toList := by
      rw [← h.lead.dictionary]
      exact Array.mem_toList_iff.2 (Array.mem_of_getElem? present)
    have fits := understood.fits cell mem
    have fetched := h.fetched running cell
    rw [step_of_cell _ running present,
      step_of_cell _ running' (cells ▸ present)]
    cases cell with
    | word w => exact execute_matches older n fetched fits
    | literal v =>
      obtain ⟨data, memory, output⟩ := fetched.toSameValues
      exact .ok (.inl (shadows_relation.closed fetched
        ⟨_, _, _, _, _, _, rfl⟩ ⟨_, _, _, _, _, _, rfl⟩
        ⟨congrArg (Stack.push · v) data, memory, output⟩))

/-! ## Whole words -/

/-- What becomes of the second machine, given what executing the word at top
level gives. -/
def Echoes (a₀ b₀ : Machine .none) (back : Cursor) (b : Machine .none) :
    EStateM.Result (Halt Fault) (Machine .none) Unit → Prop
  | .ok () a' => ∃ b', Reaches Primitives.pure b b' ∧
      Paired a₀ b₀ back a' b'
  | .error (.failed f) a' => ∃ x b', Reaches Primitives.pure b x ∧
      Fails Primitives.pure x f b' ∧ SameValues a' b'
  | .error .starved _ => True

theorem Echoes.of_reaches {x : Machine .none}
    {r : EStateM.Result (Halt Fault) (Machine .none) Unit}
    (reach : Reaches Primitives.pure b x) (h : Echoes a₀ b₀ back x r) :
    Echoes a₀ b₀ back b r := by
  unfold Echoes at h ⊢
  split at h
  · obtain ⟨b', reach', paired⟩ := h
    exact ⟨b', reach.trans reach', paired⟩
  · obtain ⟨y, b', reach', rest⟩ := h
    exact ⟨y, b', reach.trans reach', rest⟩
  · trivial

/-- A run at top level is followed to its end. -/
theorem loop_echoes (older : Older a₀.dictionary b₀.dictionary) (n : Nat)
    (h : Shadows a₀ b₀ back a b) :
    Echoes a₀ b₀ back b (loop Primitives.pure n a) := by
  induction n generalizing a b with
  | zero => trivial
  | succ n ih =>
    obtain ⟨c, running, running', _⟩ := h.running
    have turn := turn_matches older n h running
    rw [loop_of_some _ _ running]
    generalize hr : step (execute Primitives.pure n) c a = r at turn
    generalize hs : step (execute Primitives.pure n) c b = s at turn
    cases turn with
    | @ok _ a' b' related =>
      have turned : Turn Primitives.pure b b' := ⟨n, c, running', hs⟩
      rcases related with shadows | paired
      · exact (ih shadows).of_reaches (.single turned)
      · cases n with
        | zero => trivial
        | succ n =>
          show Echoes a₀ b₀ back b (loop Primitives.pure (n + 1) a')
          rw [loop_of_none _ _ paired.idle]
          exact ⟨b', .single turned, paired⟩
    | @error e a' b' related =>
      cases e with
      | starved => trivial
      | failed f =>
        exact ⟨b, b', .refl, ⟨n, c, running', hs⟩,
          ongoing_relation.same related⟩
    | excused fine =>
      cases fine
      trivial

/-- A result that is matched by a turn is echoed. -/
theorem echoes_of_matches {n : Nat} {c : Cursor} (running : b.cursor = some c)
    {r : EStateM.Result (Halt Fault) (Machine .none) Unit}
    (matched : Matches (Paired a₀ b₀ back) Starved r
      (step (execute Primitives.pure n) c b)) :
    Echoes a₀ b₀ back b r := by
  generalize turned : step (execute Primitives.pure n) c b = s at matched
  cases matched with
  | @ok _ a' b' related =>
    exact ⟨b', .single ⟨n, c, running, turned⟩, related⟩
  | @error e a' b' related =>
    cases e with
    | starved => trivial
    | failed f =>
      exact ⟨b, b', .refl, ⟨n, c, running, turned⟩, related.toSameValues⟩
  | excused fine =>
    cases fine
    trivial

section Word

variable {n : Nat} {c : Cursor} {w : Handle} {word : Word .none}

/-- The second machine fetches the word that the first executes. -/
theorem Paired.fetched (h : Paired a₀ b₀ c a b) :
    Paired a₀ b₀ ⟨c.word, c.index + 1⟩ a.forgetBlame
      (b.fetched c (.word w)) := by
  have lead := h.lead
  have trail := h.trail
  rw [forgetBlame_eq, fetched_eq]
  exact { h with
    lead := { lead with }
    trail := { trail with }
    running := rfl }

theorem Paired.bodies (h : Paired a₀ b₀ c a b)
    (older : Older a₀.dictionary b₀.dictionary)
    (known : a₀.dictionary.word? w = some word) :
    a.dictionary.body w = word.body ∧ b.dictionary.body w = word.body := by
  rw [h.lead.dictionary, h.trail.dictionary]
  exact older.body known

/-- A plain word takes one turn. -/
theorem plain_echoes (h : Paired a₀ b₀ c a b)
    (older : Older a₀.dictionary b₀.dictionary) {x : Builtin}
    (known : a₀.dictionary.word? w = some word)
    (body : word.body = .builtin x) (isPlain : x.isPlain = true)
    (present : (b.dictionary.cells c.word)[c.index]? = some (.word w)) :
    Echoes a₀ b₀ ⟨c.word, c.index + 1⟩ b
      (execute Primitives.pure (n + 1) w a) := by
  have behind := h.fetched (w := w)
  obtain ⟨body₁, body₂⟩ := behind.bodies older known
  have executed : execute Primitives.pure (n + 1) w a =
      invoke w (x.act (execute Primitives.pure n)) a.forgetBlame := by
    rw [execute]
    dsimp only
    rw [body₁, body]
    rfl
  have turned : step (execute Primitives.pure (n + 1)) c b =
      invoke w (x.act (execute Primitives.pure n)) (b.fetched c (.word w)) :=
    (step_of_cell _ h.running present).trans
      (execute_native n (by simp [behind.running]) (body₂.trans body))
  refine echoes_of_matches (n := n + 1) h.running ?_
  rw [executed, turned]
  refine paired_relation.invoke paired_relation behind fun a b busy => ?_
  have matched := paired_relation.plain isPlain (execute Primitives.pure n)
    (execute Primitives.pure n) a b busy
  exact matched.mono (fun _ _ h => h.1) fun _ starved => starved

/-- The first machine begins a run of a thread and the second calls it. -/
theorem Paired.descends (h : Paired a₀ b₀ c a b)
    (understood : Understood a₀.dictionary w) :
    Shadows a₀ b₀ c
      { a with base := a.returns.depth, cursor := some (.start w) }
      (b.descend c w) where
  toSameValues := ⟨h.data, h.memory, h.output⟩
  lead := { h.lead with }
  trail := { h.trail with }
  running := ⟨.start w, rfl, rfl, understood⟩
  frames := ⟨[], h.returns,
    congrArg (List.cons (Frame.call c)) h.returns', nofun⟩
  base := by
    show a.returns.depth = _
    rw [a.returns.depth_eq, h.returns]
  base' := h.base

/-- A run that is echoed stays so when the first machine puts back what it
had before. -/
theorem Echoes.startRun {x : Run .none Unit}
    (h : Echoes a₀ b₀ c b
      (x { a with base := a.returns.depth, cursor := some (.start w) })) :
    Echoes a₀ b₀ c b (startRun w x a) := by
  unfold Machine.startRun
  dsimp only
  generalize x _ = r at h
  cases r with
  | ok _ a' =>
    obtain ⟨b', reach, paired⟩ := h
    exact ⟨b', reach,
      { paired with lead := { paired.lead with }, idle := rfl }⟩
  | error e a' =>
    cases e with
    | starved => trivial
    | failed f =>
      obtain ⟨y, b', reach, fails, same⟩ := h
      refine ⟨y, b', reach, fails, ?_⟩
      rw [captureBlame_eq]
      exact ⟨same.data, same.memory, same.output⟩

/-- A thread is called, and followed until it returns. -/
theorem thread_echoes (h : Paired a₀ b₀ c a b)
    (older : Older a₀.dictionary b₀.dictionary) {cells : Array Cell}
    (understood : Understood a₀.dictionary w)
    (known : a₀.dictionary.word? w = some word)
    (body : word.body = .thread cells)
    (present : (b.dictionary.cells c.word)[c.index]? = some (.word w)) :
    Echoes a₀ b₀ ⟨c.word, c.index + 1⟩ b
      (execute Primitives.pure (n + 1) w a) := by
  have behind := h.fetched (w := w)
  obtain ⟨body₁, body₂⟩ := behind.bodies older known
  have executed : execute Primitives.pure (n + 1) w a =
      startRun w (loop Primitives.pure n) a.forgetBlame := by
    rw [execute]
    dsimp only
    rw [body₁, body, behind.idle]
  have called : Turn Primitives.pure b
      ((b.fetched c (.word w)).descend ⟨c.word, c.index + 1⟩ w) :=
    ⟨1, c, h.running, (step_of_cell _ h.running present).trans
      (execute_thread 0 behind.running (body₂.trans body))⟩
  rw [executed]
  refine Echoes.startRun ?_
  exact (loop_echoes older n (behind.descends understood)).of_reaches
    (.single called)

/-- **A word that is understood does the same to the values, executed at top
level or called from a thread.** -/
theorem word_echoes (n : Nat) (h : Paired a₀ b₀ c a b)
    (older : Older a₀.dictionary b₀.dictionary)
    (understood : Understood a₀.dictionary w)
    (present : (b.dictionary.cells c.word)[c.index]? = some (.word w)) :
    Echoes a₀ b₀ ⟨c.word, c.index + 1⟩ b (execute Primitives.pure n w a) := by
  cases n with
  | zero => trivial
  | succ n =>
    cases understood_closed w understood with
    | plain known body isPlain =>
      exact plain_echoes h older known body isPlain present
    | thread known body =>
      exact thread_echoes h older understood known body present

end Word

end Sides

end Machine

end Forth
