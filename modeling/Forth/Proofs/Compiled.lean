import Forth.Proofs.Computing
import Forth.Proofs.Drafts
import Forth.Proofs.Recovery
import Forth.Proofs.Seated

/-!
# Compiling a text and running it

A text of words that are understood and of values is interpreted token by
token.  Between `: f` and `;` the same tokens are compiled: a word to itself,
a value to itself behind `lit` (`code`).  Then `f` is executed, and cell by
cell it does to the values what the tokens did.

* `Compiling` follows the compilation up to `;`, and `compiles_text` says
  which cells there are.
* `text_echoes` follows the tokens of the text on the one side and the cells
  of the new word on the other, one token at a time.

Main statement: `compiled_eq_interpreted`.  It does not matter what the names
`lit` and `exit` stand for by then: the compiler uses the words that were
there at birth.
-/

namespace Forth.Machine

open Relation

/-! ## Native words that are not immediate -/

/-- Whether a word is immediate as its entry says, if it has one. -/
def markedAsEntered (w : Word .none) : Bool :=
  match w.body with
  | .builtin b => w.immediate == b.entry.immediate
  | _ => true

/-- Whether a native word is immediate is settled at birth. -/
theorem Born.immediate_of_builtin {m : Machine .none} (born : Born m)
    {h : Handle} {w : Word .none} {b : Builtin}
    (present : m.dictionary.word? h = some w) (body : w.body = .builtin b) :
    w.immediate = b.entry.immediate := by
  obtain ⟨output, watcher, grows⟩ := born
  have same := sameWords_new (E := .none) .unlimited output none watcher ()
  have kept := Kept.of_grows grows
  have native : m.dictionary.body h = .builtin b :=
    (Dictionary.body_of_word present).trans body
  -- It was there at birth, since words that come later are threads.
  obtain ⟨w₀, atBirth, body₀⟩ : ∃ w₀,
      origin.dictionary.word? h = some w₀ ∧ w₀.body = .builtin b := by
    have extend := Grows.extends grows
    rw [same.dictionary] at extend
    cases hw : origin.dictionary.word? h with
    | none =>
      obtain ⟨more, thread⟩ := extend.thread (Dictionary.body_of_none hw)
      rw [native] at thread
      cases thread
    | some w₀ =>
      refine ⟨w₀, rfl, ?_⟩
      cases body₀ : w₀.body with
      | builtin b₀ =>
        have later := extend.builtin ((Dictionary.body_of_word hw).trans body₀)
        exact later.symm.trans native
      | host code => exact code.elim
      | thread cells =>
        obtain ⟨more, thread⟩ :=
          extend.thread ((Dictionary.body_of_word hw).trans body₀)
        rw [native] at thread
        cases thread
  have facts : origin.underConstruction = none ∧
      origin.dictionary.words.toList.all markedAsEntered = true := by
    decide +kernel
  have unchanged : m.dictionary.word? h = some w₀ := by
    refine kept.others h w₀ (same.dictionary ▸ atBirth) fun u under => ?_
    have nothing := same.under.trans facts.1
    cases nothing.symm.trans under
  cases present.symm.trans unchanged
  have mem : w ∈ origin.dictionary.words.toList :=
    Array.mem_toList_iff.2 (Array.mem_of_getElem? atBirth)
  have agree := List.all_eq_true.1 facts.2 w mem
  unfold markedAsEntered at agree
  rw [body₀] at agree
  exact eq_of_beq agree

/-- No word that is understood runs while compiling. -/
theorem Understood.normal {m : Machine .none} (born : Born m) {w : Handle}
    (h : Understood m.dictionary w) :
    ∃ word, m.dictionary.word? w = some word ∧ word.immediate = false := by
  cases understood_closed w h with
  | @plain word b present body isPlain =>
    refine ⟨word, present, (born.immediate_of_builtin present body).trans ?_⟩
    cases b with
    | stack s => cases s <;> rfl
    | math s => cases s <;> rfl
    | name s => cases s <;> rfl
    | console s => cases s <;> rfl
    | compile s => cases isPlain
    | thread s => cases isPlain
  | thread present _ normal _ => exact ⟨_, present, normal⟩

/-! ## Compiling the text -/

/-- The cells that a value is compiled to. -/
def codeOf : Value → List Cell
  | .word w => [.word w]
  | v => [.word (handleOf (.thread .lit)), .literal v]

theorem codeOf_of_not_word {v : Value} (notWord : v.isWord = false) :
    codeOf v = [.word (handleOf (.thread .lit)), .literal v] := by
  cases v with
  | word w => cases notWord
  | _ => rfl

/-- The cells that a text is compiled to. -/
def code (d : Dictionary .none) (texts : List String) : List Cell :=
  texts.flatMap fun text => codeOf (d.translate text)

/-- A token that stands for a value, or for a word that is understood. -/
def Speaks (d : Dictionary .none) (text : String) : Prop :=
  ∀ w, d.translate text = .word w → Understood d w

/-- The machine compiles the word `u`, and has not touched its data stack. -/
structure Compiling (m : Machine .none) (u : Handle) (cells : List Cell)
    (mode : Bool) (texts : List String) (t : Machine .none) : Prop
    extends Drafting m u ⟨cells, m.data.items, mode, false, texts⟩ t where
  data : t.data = m.data

section Compiling

variable {m t : Machine .none} {u : Handle} {cells : List Cell}
  {text : String} {texts rest : List String}

/-- A token keeps its meaning while another name is being defined. -/
theorem Compiling.translate (h : Compiling m u cells false texts t)
    (other : text ≠ u.name) :
    t.dictionary.translate text = m.dictionary.translate text :=
  translate_congr (by rw [h.names, if_neg other])

/-- A value is appended behind `lit`. -/
theorem Compiling.compilesValue (h : Compiling m u cells false texts t)
    {token : Token} (other : token.text ≠ u.name)
    (notWord : (m.dictionary.translate token.text).isWord = false) :
    ∃ t', processToken Primitives.pure 1 token t = .ok () t' ∧
      Compiling m u
        (cells ++ codeOf (m.dictionary.translate token.text)) false texts
        t' := by
  have mode : ¬ t.interpreting = true := by simp [h.mode]
  have grown := (h.grows (.word (handleOf (.thread .lit)))).grows
    (.literal (m.dictionary.translate token.text))
  rw [List.append_assoc, List.singleton_append,
    ← codeOf_of_not_word notWord] at grown
  refine ⟨_, ?_, grown, h.data⟩
  unfold processToken
  rw [h.translate other, processValue_of_not_word _ _ notWord, if_neg mode]
  exact Act.run_of_ok (compileLiteral_of_under h.stocked h.under _)

/-- A word that is not immediate is appended itself. -/
theorem Compiling.compilesWord (h : Compiling m u cells false texts t)
    {token : Token} (other : token.text ≠ u.name) {w : Handle}
    (meant : m.dictionary.translate token.text = .word w) {word : Word .none}
    (present : m.dictionary.word? w = some word)
    (normal : word.immediate = false) :
    ∃ t', processToken Primitives.pure 1 token t = .ok () t' ∧
      Compiling m u
        (cells ++ codeOf (m.dictionary.translate token.text)) false texts
        t' := by
  have waits : ¬ (t.interpreting = true ∨
      t.dictionary.isImmediate w = true) := by
    unfold Dictionary.isImmediate
    rw [h.older w word present]
    simp [normal, h.mode]
  rw [meant]
  refine ⟨_, ?_, h.grows (.word w), h.data⟩
  unfold processToken
  rw [h.translate other, meant]
  unfold processValue
  dsimp only
  rw [if_neg waits]
  exact Act.run_of_ok (compile_of_under h.stocked h.under _)

/-- One token is compiled. -/
theorem Compiling.compiles (h : Compiling m u cells false (text :: texts) t)
    (born : Born m) (other : text ≠ u.name)
    (speaks : Speaks m.dictionary text) :
    ∃ t', Consumes Primitives.pure t t' ∧
      Compiling m u (cells ++ codeOf (m.dictionary.translate text)) false
        texts t' := by
  obtain ⟨token, x, rfl, read, after, data⟩ := h.toDrafting.reads
  have after : Compiling m u cells false texts x := ⟨after, data.trans h.data⟩
  obtain ⟨t', done, compiled⟩ : ∃ t',
      processToken Primitives.pure 1 token x = .ok () t' ∧
      Compiling m u (cells ++ codeOf (m.dictionary.translate token.text))
        false texts t' := by
    cases isWord : (m.dictionary.translate token.text).isWord with
    | false => exact after.compilesValue other isWord
    | true =>
      obtain ⟨w, meant⟩ := exists_word_of_isWord isWord
      obtain ⟨word, present, normal⟩ := (speaks w meant).normal born
      exact after.compilesWord other meant present normal
  exact ⟨t', ⟨1, token, x, h.going, read, done⟩, compiled⟩

/-- **All tokens are compiled.** -/
theorem compiles_text (born : Born m)
    (others : ∀ text ∈ texts, text ≠ u.name)
    (speak : ∀ text ∈ texts, Speaks m.dictionary text)
    (h : Compiling m u cells false (texts ++ rest) t) :
    ∃ t', ReflTransGen (Consumes Primitives.pure) t t' ∧
      Compiling m u (cells ++ code m.dictionary texts) false rest t' := by
  induction texts generalizing cells t with
  | nil =>
    refine ⟨t, .refl, ?_⟩
    rw [code, List.flatMap_nil, List.append_nil]
    exact h
  | cons text texts ih =>
    obtain ⟨t₁, consumes, h₁⟩ := h.compiles born
      (others text List.mem_cons_self) (speak text List.mem_cons_self)
    obtain ⟨t₂, consumed, h₂⟩ := ih
      (fun s mem => others s (List.mem_cons_of_mem _ mem))
      (fun s mem => speak s (List.mem_cons_of_mem _ mem)) h₁
    refine ⟨t₂, .head consumes consumed, ?_⟩
    rw [code, List.flatMap_cons, ← List.append_assoc]
    exact h₂

/-- `;` appends `exit` and turns to interpreting. -/
theorem Compiling.closes (h : Compiling m u cells false (";" :: texts) t)
    (other : u.name ≠ ";")
    (found : m.dictionary.lookup ";" =
      some (handleOf (.compile .endDefine))) :
    ∃ t', Consumes Primitives.pure t t' ∧
      Compiling m u (cells ++ [.word (handleOf (.thread .exit))]) true texts
        t' := by
  obtain ⟨token, x, htext, read, after, data⟩ := h.toDrafting.reads
  have found' : x.dictionary.lookup token.text =
      some (handleOf (.compile .endDefine)) := by
    rw [htext, after.names, if_neg other.symm]
    exact found
  obtain ⟨y, acted, closed, same⟩ := (after.aside
    (some (handleOf (.compile .endDefine))) x.forgetBlame.blame).closes
  have done := processToken_of_builtin after.stocked found' (.inr rfl)
    (Act.run_of_ok acted)
  refine ⟨_, ⟨1, token, x, h.going, read, done⟩,
    closed.aside x.executing y.blame, ?_⟩
  exact same.trans (data.trans h.data)

end Compiling

/-! ## Interpreting the text -/

/-- The machine is at top level and has these tokens to interpret. -/
abbrev Facing (texts : List String) (a : Machine .none) : Prop :=
  Reading a a.data.items true texts a

/-- The cells from a place on. -/
def CodeAt (b : Machine .none) (c : Cursor) (cells : List Cell) : Prop :=
  (b.dictionary.cells c.word).toList.drop c.index = cells

section Text

variable {a₀ b₀ a b : Machine .none} {c : Cursor} {cell : Cell}
  {cells : List Cell} {text : String} {texts : List String} {v : Value}

theorem CodeAt.head (h : CodeAt b c (cell :: cells)) :
    (b.dictionary.cells c.word)[c.index]? = some cell := by
  unfold CodeAt at h
  have first := congrArg (fun l => l[0]?) h
  simpa [List.getElem?_drop] using first

theorem CodeAt.tail (h : CodeAt b c (cell :: cells)) :
    CodeAt b ⟨c.word, c.index + 1⟩ cells := by
  unfold CodeAt at h ⊢
  rw [← List.drop_drop, h, List.drop_succ_cons, List.drop_zero]

theorem CodeAt.drop {front : List Cell} (h : CodeAt b c (front ++ cells)) :
    CodeAt b ⟨c.word, c.index + front.length⟩ cells := by
  unfold CodeAt at h ⊢
  rw [← List.drop_drop, h, List.drop_left]

/-- Computing leaves the code where it is. -/
theorem CodeAt.of_steady {b' : Machine .none} (h : CodeAt b c cells)
    (steady : Steady b b') : CodeAt b' c cells := by
  unfold CodeAt
  rw [steady.dictionary]
  exact h

theorem Stocked.of_steady {b' : Machine .none} (h : Stocked b)
    (steady : Steady b b') : Stocked b' :=
  h.of_same steady.dictionary steady.builtins steady.underConstruction

theorem Facing.of_steady {a' : Machine .none} (h : Facing texts a)
    (steady : Steady a a') (idle : a'.cursor = none) : Facing texts a' where
  stocked := h.stocked.of_steady steady
  items := rfl
  mode := steady.interpreting.trans h.mode
  whole := by rw [steady.input]; exact h.whole
  unread := by rw [steady.input]; exact h.unread
  memory := rfl
  output := rfl
  returns := rfl
  idle := idle
  going := steady.finished.trans h.going

/-- The two are compared from where they are. -/
theorem Paired.based (h : Paired a₀ b₀ c a b) : Paired a b c a b where
  toSameValues := h.toSameValues
  lead := .refl a
  trail := .refl b
  idle := h.idle
  running := h.running
  returns := rfl
  returns' := h.returns'.trans h.returns.symm
  base := h.base.trans (congrArg List.length h.returns.symm)

/-- The first machine reads a token, and the two are compared from there. -/
theorem Paired.reads (h : Paired a₀ b₀ c a b)
    (facing : Facing (text :: texts) a) :
    ∃ token x, token.text = text ∧ a.nextToken = (some token, x) ∧
      Facing texts x ∧ Paired x b c x b ∧ x.dictionary = a.dictionary := by
  obtain ⟨token, rest, htext, read, after⟩ := Reading.reads facing
  exact ⟨token, _, htext, read, { after with items := rfl },
    { h.based with lead := .refl _ }, rfl⟩

/-- A value behind `lit` is pushed. -/
theorem literal_turn (h : Paired a₀ b₀ c a b) (stocked : Stocked b)
    (at_ : CodeAt b c
      (.word (handleOf (.thread .lit)) :: .literal v :: cells)) :
    ∃ b', Turn Primitives.pure b b' ∧
      Paired a₀ b₀ ⟨c.word, c.index + 2⟩ { a with data := a.data.push v }
        b' := by
  have second : (b.dictionary.cells c.word)[c.index + 1]? =
      some (.literal v) := at_.tail.head
  have behind := h.fetched (w := handleOf (.thread .lit))
  have body : (b.fetched c (.word (handleOf (.thread .lit)))).dictionary.body
      (handleOf (.thread .lit)) = .builtin (.thread .lit) := by
    rw [fetched_eq]
    exact stocked.body (.thread .lit)
  have fetched : (Cursor.mk c.word (c.index + 1)).fetch
      (b.dictionary.cells c.word) =
      .ok (.literal v, ⟨c.word, c.index + 2⟩) := by
    unfold Cursor.fetch
    rw [second]
  have acted : ThreadWord.pushOperand
      { b.fetched c (.word (handleOf (.thread .lit))) with
        executing := some (handleOf (.thread .lit)) } =
      .ok () { b.fetched c (.word (handleOf (.thread .lit))) with
        executing := some (handleOf (.thread .lit))
        cursor := some ⟨c.word, c.index + 2⟩
        data := b.data.push v } := by
    rw [ThreadWord.pushOperand, Act.bind_apply, Act.fetchOperand_apply,
      fetched_eq]
    dsimp only
    rw [fetched]
    rfl
  refine ⟨_, ⟨1, c, h.running, (step_of_cell _ h.running at_.head).trans
    ((execute_native 0 (by simp [behind.running]) body).trans
      (invoke_of_ok (Act.run_of_ok acted)))⟩, ?_⟩
  rw [fetched_eq]
  exact
    { toSameValues :=
        ⟨congrArg (Stack.push · v) h.data, h.memory, h.output⟩
      lead := { h.lead with }
      trail := { h.trail with }
      idle := h.idle
      running := rfl
      returns := h.returns
      returns' := h.returns'
      base := h.base }

/-- At its end the new word exits, and its run is over. -/
theorem exit_turn (h : Paired a₀ b₀ c a b) (stocked : Stocked b)
    (at_ : CodeAt b c [.word (handleOf (.thread .exit))]) :
    ∃ b', Turn Primitives.pure b b' ∧ b'.cursor = none ∧ SameValues a b' ∧
      b'.returns.items = a.returns.items ∧ Steady b₀ b' := by
  have behind := h.fetched (w := handleOf (.thread .exit))
  have body : (b.fetched c
      (.word (handleOf (.thread .exit)))).dictionary.body
      (handleOf (.thread .exit)) = .builtin (.thread .exit) := by
    rw [fetched_eq]
    exact stocked.body (.thread .exit)
  have atBase : b.returns.depth = b.base := by
    rw [b.returns.depth_eq, h.returns', h.base]
  have acted : Act.exitThread
      { b.fetched c (.word (handleOf (.thread .exit))) with
        executing := some (handleOf (.thread .exit)) } =
      .ok () { b.fetched c (.word (handleOf (.thread .exit))) with
        executing := some (handleOf (.thread .exit))
        cursor := none } := by
    rw [Act.exitThread_apply, fetched_eq]
    dsimp only
    rw [if_pos (Nat.le_of_eq atBase)]
  refine ⟨_, ⟨1, c, h.running, (step_of_cell _ h.running at_.head).trans
    ((execute_native 0 (by simp [behind.running]) body).trans
      (invoke_of_ok (Act.run_of_ok acted)))⟩, ?_⟩
  rw [fetched_eq]
  exact ⟨rfl, ⟨h.data, h.memory, h.output⟩, h.returns'.trans h.returns.symm,
    { h.trail with }⟩

/-- **One token.** -/
theorem token_echoes (n : Nat) {token : Token} (h : Paired a b c a b)
    (mode : a.interpreting = true) (stocked : Stocked b)
    (older : Older a.dictionary b.dictionary)
    (speaks : Speaks a.dictionary token.text)
    (at_ : CodeAt b c
      (codeOf (a.dictionary.translate token.text) ++ cells)) :
    Echoes a b ⟨c.word, c.index +
        (codeOf (a.dictionary.translate token.text)).length⟩ b
      (processToken Primitives.pure n token a) := by
  cases hw : (a.dictionary.translate token.text).isWord with
  | false =>
    rw [codeOf_of_not_word hw] at at_ ⊢
    obtain ⟨b', turn, paired⟩ := literal_turn h stocked at_
    have pushed : processToken Primitives.pure n token a =
        .ok () { a with
          data := a.data.push (a.dictionary.translate token.text) } := by
      unfold processToken
      rw [processValue_of_not_word _ _ hw, if_pos mode]
      rfl
    rw [pushed]
    exact ⟨b', .single turn, paired⟩
  | true =>
    obtain ⟨w, hv⟩ := exists_word_of_isWord hw
    rw [hv] at at_ ⊢
    rw [processToken_of_word hv (.inl mode)]
    exact word_echoes n h older (speaks w hv) at_.head

/-- What becomes of the second machine, given what interpreting the text
gives. -/
def Resounds (b : Machine .none) :
    EStateM.Result (Halt Report) (Machine .none) Unit → Prop
  | .ok () a' => ∃ b', Reaches Primitives.pure b b' ∧ b'.cursor = none ∧
      SameValues a' b' ∧ b'.returns.items = a'.returns.items ∧ Steady b b'
  | .error (.failed report) a' => ∃ x b', Reaches Primitives.pure b x ∧
      Fails Primitives.pure x report.fault b' ∧ SameValues a' b'
  | .error .starved _ => True

theorem Resounds.of_reaches {x : Machine .none}
    {r : EStateM.Result (Halt Report) (Machine .none) Unit}
    (reach : Reaches Primitives.pure b x) (steady : Steady b x)
    (h : Resounds x r) : Resounds b r := by
  unfold Resounds at h ⊢
  split at h
  · obtain ⟨b', reach', halted, same, returns, steady'⟩ := h
    exact ⟨b', reach.trans reach', halted, same, returns,
      steady.trans steady'⟩
  · obtain ⟨y, b', reach', rest⟩ := h
    exact ⟨y, b', reach.trans reach', rest⟩
  · trivial

/-- **All tokens.**  The first machine interprets a text, and the second runs
the cells that it is compiled to. -/
theorem text_echoes (n : Nat) (h : Paired a₀ b₀ c a b)
    (facing : Facing texts a) (stocked : Stocked b)
    (older : Older a.dictionary b.dictionary)
    (speak : ∀ text ∈ texts, Speaks a.dictionary text)
    (at_ : CodeAt b c
      (code a.dictionary texts ++ [.word (handleOf (.thread .exit))])) :
    Resounds b (interpret Primitives.pure .stop n a) := by
  induction n generalizing a₀ b₀ a b c texts with
  | zero => trivial
  | succ n ih =>
    rw [interpret]
    simp only [facing.going, Bool.false_eq_true, if_false]
    cases texts with
    | nil =>
      obtain ⟨b', turn, halted, same, returns, steady⟩ :=
        exit_turn h.based stocked at_
      obtain ⟨rest, none, _⟩ :=
        nextToken_of_spells_nil facing.whole facing.unread
      rw [none]
      exact ⟨b', .single turn, halted, same.withInput _, returns, steady⟩
    | cons text texts =>
      obtain ⟨token, x, rfl, read, facing', paired, dictionary⟩ :=
        h.reads facing
      rw [← dictionary] at older speak at_
      rw [code, List.flatMap_cons, List.append_assoc] at at_
      have echoes := token_echoes n paired facing'.mode stocked older
        (speak token.text List.mem_cons_self) at_
      rw [read]
      dsimp only
      cases processed : processToken Primitives.pure n token x with
      | ok _ a' =>
        rw [processed] at echoes
        obtain ⟨b', reach, paired'⟩ := echoes
        have later : CodeAt b' ⟨c.word, c.index +
            (codeOf (x.dictionary.translate token.text)).length⟩
            (code a'.dictionary texts ++
              [.word (handleOf (.thread .exit))]) := by
          rw [paired'.lead.dictionary]
          exact at_.drop.of_steady paired'.trail
        rw [← paired'.lead.dictionary] at speak older
        rw [← paired'.trail.dictionary] at older
        refine Resounds.of_reaches reach paired'.trail ?_
        exact ih paired' (facing'.of_steady paired'.lead paired'.idle)
          (stocked.of_steady paired'.trail) older
          (fun s mem => speak s (List.mem_cons_of_mem _ mem)) later
      | error e a' =>
        rw [processed] at echoes
        cases e with
        | starved => trivial
        | failed f =>
          obtain ⟨y, b', reach, fails, same⟩ := echoes
          have given := (Unwound.refl a').abandoned f
          refine ⟨y, b', reach, fails, ?_⟩
          exact ⟨same.data.trans given.data.symm,
            same.memory.trans given.memory.symm,
            same.output.trans given.output.symm⟩

end Text

/-! ## Running the new word -/

section Run

variable {x b : Machine .none} {u : Handle} {cells : Array Cell}
  {token : Token}

/-- The token for a thread starts a run of it. -/
theorem processToken_of_thread (meant : x.dictionary.translate token.text =
      .word u) (mode : x.interpreting = true) (idle : x.cursor = none)
    (body : x.dictionary.body u = .thread cells) (n : Nat) :
    processToken Primitives.pure (n + 1) token x =
      startRun u (loop Primitives.pure n) x.forgetBlame := by
  have forgot : x.forgetBlame.dictionary = x.dictionary ∧
      x.forgetBlame.cursor = x.cursor := by
    rw [forgetBlame_eq]
    exact ⟨rfl, rfl⟩
  rw [processToken_of_word meant (.inl mode), execute]
  dsimp only
  rw [forgot.1, body, forgot.2, idle]

/-- If the thread comes to its end, the token is processed. -/
theorem exists_processToken_of_reaches
    (meant : x.dictionary.translate token.text = .word u)
    (mode : x.interpreting = true) (idle : x.cursor = none)
    (body : x.dictionary.body u = .thread cells)
    (reach : Reaches Primitives.pure (x.entering u) b)
    (halted : b.cursor = none) :
    ∃ n base, processToken Primitives.pure n token x =
      .ok () { b with cursor := none, base := base } := by
  have ended := loop_of_none Primitives.pure 0 halted
  obtain ⟨n, ran⟩ := exists_loop_of_reaches Primitives.pure_cut reach (n := 1)
    (ended ▸ ends_ok () b)
  refine ⟨n + 1, x.forgetBlame.base, ?_⟩
  rw [processToken_of_thread meant mode idle body]
  exact startRun_of_ok (ran.trans ended)

/-- If a turn of the thread fails, so does the token. -/
theorem exists_processToken_of_fails
    (meant : x.dictionary.translate token.text = .word u)
    (mode : x.interpreting = true) (idle : x.cursor = none)
    (body : x.dictionary.body u = .thread cells) {y : Machine .none}
    {f : Fault} (reach : Reaches Primitives.pure (x.entering u) y)
    (fails : Fails Primitives.pure y f b) :
    ∃ n t, processToken Primitives.pure n token x = .error (.failed f) t ∧
      Unwound b t := by
  obtain ⟨j, failed⟩ := exists_loop_of_fails fails
  obtain ⟨n, ran⟩ := exists_loop_of_reaches Primitives.pure_cut reach
    (failed ▸ ends_failed f b)
  refine ⟨n + 1, _, ?_, (Unwound.refl b).put none x.forgetBlame.base
    b.captureBlame.executing⟩
  rw [processToken_of_thread meant mode idle body]
  exact startRun_of_failed (ran.trans failed)

end Run

/-! ## The two texts -/

section Texts

variable {m : Machine .none} {texts : List String} {f : String}

/-- The definition is compiled, and then its name is read. -/
theorem compiles_definition (born : Born m) (idle : m.cursor = none)
    (mode : m.interpreting = true) (going : m.finished = false)
    (colon : m.dictionary.lookup ":" = some (handleOf (.compile .define)))
    (semicolon : m.dictionary.lookup ";" =
      some (handleOf (.compile .endDefine)))
    (speak : ∀ text ∈ texts, Speaks m.dictionary text)
    (notSemicolon : f ≠ ";") (fresh : f ∉ texts) {definition : String}
    (spells : Spells definition.toList (":" :: f :: (texts ++ [";", f])))
    (path : String) :
    ∃ t token x,
      ReflTransGen (Consumes Primitives.pure)
        { m with input := .ofText path definition } t ∧
      t.finished = false ∧ t.nextToken = (some token, x) ∧ token.text = f ∧
      Compiling m ⟨m.dictionary.words.size, f⟩
        (code m.dictionary texts ++ [.word (handleOf (.thread .exit))]) true
        [] x := by
  have opening : Opening m (":" :: f :: (texts ++ [";", f]))
      { m with input := .ofText path definition } :=
    { stocked := born.stocked.of_same rfl rfl rfl
      items := rfl
      mode := mode
      whole := rfl
      unread := Source.spells_ofText spells path
      memory := rfl
      output := rfl
      returns := rfl
      idle := idle
      going := going
      dictionary := rfl }
  obtain ⟨t₁, begins, drafting, data⟩ := opening.defines colon
  have others : ∀ text ∈ texts, text ≠ f :=
    fun text mem same => fresh (same ▸ mem)
  obtain ⟨t₂, compiled, h₂⟩ := compiles_text born others speak
    (⟨drafting, data⟩ : Compiling m _ [] false (texts ++ [";", f]) t₁)
  obtain ⟨t₃, closes, h₃⟩ := h₂.closes notSemicolon semicolon
  obtain ⟨token, x, htext, read, after, same⟩ := h₃.toDrafting.reads
  exact ⟨t₃, token, x, (ReflTransGen.head begins compiled).tail closes,
    h₃.going, read, htext, after, same.trans h₃.data⟩

/-- Interpreting a text that has been consumed up to some machine ends as it
ends from there. -/
theorem exists_processSource_of_ok {path text : String} {t y : Machine .none}
    (consumed : ReflTransGen (Consumes Primitives.pure)
      { m with input := .ofText path text } t) {n : Nat}
    (done : interpret Primitives.pure .stop n t = .ok () y) :
    ∃ k, processSource Primitives.pure k path text m =
      .ok () { y with input := m.input } := by
  obtain ⟨k, interpreted⟩ := exists_interpret_of_consumes
    Primitives.pure_cut .stop consumed (done ▸ ends_ok () y)
  refine ⟨k, ?_⟩
  unfold processSource reading
  rw [interpreted, done]

theorem exists_processSource_of_failed {path text : String}
    {t y : Machine .none} {report : Report}
    (consumed : ReflTransGen (Consumes Primitives.pure)
      { m with input := .ofText path text } t) {n : Nat}
    (failed : interpret Primitives.pure .stop n t =
      .error (.failed report) y) :
    ∃ k, processSource Primitives.pure k path text m =
      .error (.failed report) { y with input := m.input } := by
  obtain ⟨k, interpreted⟩ := exists_interpret_of_consumes
    Primitives.pure_cut .stop consumed (failed ▸ ends_failed report y)
  refine ⟨k, ?_⟩
  unfold processSource reading
  rw [interpreted, failed]

/-- What a source ends with is what interpreting it ends with, with the input
from before. -/
theorem interpret_of_processSource_ok {n : Nat} {path text : String}
    {a : Machine .none}
    (done : processSource Primitives.pure n path text m = .ok () a) :
    ∃ a', interpret Primitives.pure .stop n
        { m with input := .ofText path text } = .ok () a' ∧
      a = { a' with input := m.input } := by
  unfold processSource reading at done
  generalize interpret Primitives.pure .stop n
    { m with input := .ofText path text } = r at done
  cases r with
  | ok _ a' => cases done; exact ⟨a', rfl, rfl⟩
  | error e a' => cases e <;> cases done

theorem interpret_of_processSource_failed {n : Nat} {path text : String}
    {a : Machine .none} {report : Report}
    (failed : processSource Primitives.pure n path text m =
      .error (.failed report) a) :
    ∃ a', interpret Primitives.pure .stop n
        { m with input := .ofText path text } = .error (.failed report) a' ∧
      a = { a' with input := m.input } := by
  unfold processSource reading at failed
  generalize interpret Primitives.pure .stop n
    { m with input := .ofText path text } = r at failed
  cases r with
  | ok _ a' => cases failed
  | error e a' =>
    cases e with
    | failed => cases failed; exact ⟨a', rfl, rfl⟩
    | starved => cases failed

theorem processSource_zero (path text : String) :
    processSource Primitives.pure 0 path text m =
      .error .starved { m with input := .ofText path text } := rfl

/-- A machine that was told to stop does nothing. -/
theorem processSource_of_finished (stopped : m.finished = true) (n : Nat)
    (path text : String) :
    processSource Primitives.pure (n + 1) path text m = .ok () m := by
  unfold processSource reading
  rw [interpret]
  dsimp only
  rw [if_pos stopped]

section New

variable {u : Handle} {x : Machine .none} {cells : List Cell}

/-- The new word is a thread of the cells that were compiled. -/
theorem Compiling.body (h : Compiling m u cells true [] x) :
    x.dictionary.body u = .thread cells.toArray := by
  obtain ⟨location, word⟩ := h.word
  exact Dictionary.body_of_word word

/-- At its first cell it is beside the machine that has the text to
interpret. -/
theorem Compiling.paired (h : Compiling m u cells true [] x)
    (idle : m.cursor = none) (input : Source) :
    Paired { m with input := input } (x.entering u) (.start u)
      { m with input := input } (x.entering u) := by
  refine
    { toSameValues := ?_
      lead := .refl _
      trail := .refl _
      idle := idle
      running := rfl
      returns := rfl
      returns' := ?_
      base := ?_ }
  all_goals
    unfold entering
    rw [forgetBlame_eq]
  · exact ⟨h.data, h.memory, h.output⟩
  · exact congrArg Stack.items h.returns
  · show x.returns.depth = m.returns.items.length
    rw [h.returns, m.returns.depth_eq]

theorem steady_entering (x : Machine .none) (u : Handle) :
    Steady x (x.entering u) := by
  unfold entering
  rw [forgetBlame_eq]
  exact ⟨rfl, rfl, rfl, rfl, rfl, rfl⟩

theorem Compiling.codeAt (h : Compiling m u cells true [] x) :
    CodeAt (x.entering u) (.start u) cells := by
  unfold CodeAt
  rw [(steady_entering x u).dictionary]
  show (x.dictionary.cells u).toList.drop 0 = cells
  rw [Dictionary.cells_of_thread h.body]
  rfl

/-- The cells of the new word follow the tokens of the text. -/
theorem Compiling.resounds
    (h : Compiling m u
      (code m.dictionary texts ++ [.word (handleOf (.thread .exit))]) true []
      x)
    (stocked : Stocked m) (idle : m.cursor = none)
    (mode : m.interpreting = true) (going : m.finished = false)
    (speak : ∀ text ∈ texts, Speaks m.dictionary text) {source : String}
    (spells : Spells source.toList texts) (path : String) (n : Nat) :
    Resounds (x.entering u) (interpret Primitives.pure .stop n
      { m with input := .ofText path source }) := by
  have facing : Facing texts { m with input := .ofText path source } :=
    { stocked := stocked.of_same rfl rfl rfl
      items := rfl
      mode := mode
      whole := rfl
      unread := Source.spells_ofText spells path
      memory := rfl
      output := rfl
      returns := rfl
      idle := idle
      going := going }
  have steady := steady_entering x u
  have older : Older m.dictionary (x.entering u).dictionary := by
    rw [steady.dictionary]
    exact h.older
  exact text_echoes n (h.paired idle _) facing (h.stocked.of_steady steady)
    older speak h.codeAt

/-- Where the cells come to their end, so does the text with the name of the
new word. -/
theorem Compiling.runs {t b : Machine .none} {token : Token} {path : String}
    {definition : String} (h : Compiling m u cells true [] x)
    (consumed : ReflTransGen (Consumes Primitives.pure)
      { m with input := .ofText path definition } t)
    (going : t.finished = false) (read : t.nextToken = (some token, x))
    (meant : x.dictionary.translate token.text = .word u)
    (reach : Reaches Primitives.pure (x.entering u) b)
    (halted : b.cursor = none) (steady : Steady (x.entering u) b) :
    ∃ k y, processSource Primitives.pure k path definition m = .ok () y ∧
      SameValues b y ∧ y.returns = b.returns := by
  obtain ⟨k, base, processed⟩ := exists_processToken_of_reaches meant h.mode
    h.idle h.body reach halted
  have here : Facing [] x := { h.toReading with
    items := rfl, memory := rfl, output := rfl, returns := rfl }
  have facing : Facing [] { b with cursor := none, base := base } :=
    here.of_steady { (steady_entering x u).trans steady with } rfl
  obtain ⟨rest, ended⟩ := Reading.ends facing
  obtain ⟨j, ran⟩ := exists_processSource_of_ok
    (consumed.tail ⟨k, token, x, going, read, processed⟩) ended
  exact ⟨j, _, ran, ⟨rfl, rfl, rfl⟩, rfl⟩

/-- Where one of the cells fails, so does the text with the name of the new
word. -/
theorem Compiling.fails {t y b : Machine .none} {token : Token}
    {path definition : String} {f : Fault}
    (h : Compiling m u cells true [] x)
    (consumed : ReflTransGen (Consumes Primitives.pure)
      { m with input := .ofText path definition } t)
    (going : t.finished = false) (read : t.nextToken = (some token, x))
    (meant : x.dictionary.translate token.text = .word u)
    (reach : Reaches Primitives.pure (x.entering u) y)
    (fails : Fails Primitives.pure y f b) :
    ∃ k report z, processSource Primitives.pure k path definition m =
        .error (.failed report) z ∧
      report.fault = f ∧ SameValues b z := by
  obtain ⟨k, z, stopped, unwound⟩ := exists_processToken_of_fails meant h.mode
    h.idle h.body reach fails
  have given := unwound.abandoned f
  have interpreted : interpret Primitives.pure .stop (k + 1) t =
      .error (.failed (z.recover f).1) (z.recover f).2 := by
    rw [interpret]
    simp only [going, read, stopped, Bool.false_eq_true, if_false]
    rfl
  obtain ⟨j, ran⟩ := exists_processSource_of_failed consumed interpreted
  exact ⟨j, _, _, ran, rfl, given.data, given.memory, given.output⟩

end New

/-- **Compiling a text and running it does to the values what interpreting it
does.**  Let a machine at top level have a text of words that are understood
and of values to interpret, and a text that defines a new word by the same
tokens and then names it, with `:` and `;` still what they were at birth.  If
the first text ends well, so does the second, and leaves the same on the data
stack, with the same greatest depth, in the variables, on the return stack and
in the output; if the first fails, the second fails with the same fault and
leaves the same values. -/
theorem compiled_eq_interpreted (born : Born m) (idle : m.cursor = none)
    (mode : m.interpreting = true)
    (colon : m.dictionary.lookup ":" = m.builtins.find? ":")
    (semicolon : m.dictionary.lookup ";" = m.builtins.find? ";")
    (speak : ∀ text ∈ texts, Speaks m.dictionary text)
    (notSemicolon : f ≠ ";") (fresh : f ∉ texts)
    {source definition : String} (spells : Spells source.toList texts)
    (spells' : Spells definition.toList (":" :: f :: (texts ++ [";", f])))
    (path path' : String) (n : Nat) :
    (∀ a, processSource Primitives.pure n path source m = .ok () a →
      ∃ k b, processSource Primitives.pure k path' definition m = .ok () b ∧
        SameValues a b ∧ b.returns.items = a.returns.items) ∧
    ∀ report a,
      processSource Primitives.pure n path source m =
        .error (.failed report) a →
      ∃ k report' b,
        processSource Primitives.pure k path' definition m =
          .error (.failed report') b ∧
        report'.fault = report.fault ∧ SameValues a b := by
  have stocked := born.stocked
  cases going : m.finished with
  | true =>
    have still := processSource_of_finished going
    cases n with
    | zero =>
      rw [processSource_zero]
      constructor
      · intro a done
        cases done
      · intro report a failed
        cases failed
    | succ n =>
      rw [still n path source]
      constructor
      · intro a done
        cases done
        exact ⟨1, m, still 0 path' definition, ⟨rfl, rfl, rfl⟩, rfl⟩
      · intro report a failed
        cases failed
  | false =>
    obtain ⟨t, token, x, consumed, going', read, rfl, compiling⟩ :=
      compiles_definition born idle mode going
        (colon.trans (stocked.builtin (.compile .define)))
        (semicolon.trans (stocked.builtin (.compile .endDefine))) speak
        notSemicolon fresh spells' path'
    have meant : x.dictionary.translate token.text =
        .word ⟨m.dictionary.words.size, token.text⟩ :=
      translate_of_lookup (by rw [compiling.names, if_pos rfl])
    have resounds := compiling.resounds stocked idle mode going speak spells
      path n
    constructor
    · intro a done
      obtain ⟨a', interpreted, rfl⟩ := interpret_of_processSource_ok done
      rw [interpreted] at resounds
      obtain ⟨b, reach, halted, same, returns, steady⟩ := resounds
      obtain ⟨k, y, ran, same', returns'⟩ := compiling.runs consumed going'
        read meant reach halted steady
      exact ⟨k, y, ran, (same.trans same').withInput _,
        (congrArg Stack.items returns').trans returns⟩
    · intro report a failed
      obtain ⟨a', interpreted, rfl⟩ := interpret_of_processSource_failed failed
      rw [interpreted] at resounds
      obtain ⟨y, b, reach, fails, same⟩ := resounds
      obtain ⟨k, report', z, ran, fault, same'⟩ := compiling.fails consumed
        going' read meant reach fails
      exact ⟨k, report', z, ran, fault, (same.trans same').withInput _⟩

end Texts

/-- A machine with a word `sq`, where `lit` and `exit` name other words than
the compiler uses. -/
def havingSquare : Machine .none :=
  having ": sq dup * ; : lit 9 ; : exit 8 ;"

/-- What it comes to when a text is interpreted. -/
def squaring (text : String) :
    EStateM.Result (Halt Report) (Machine .none) Unit :=
  processSource Primitives.pure 50 "" text havingSquare

theorem havingSquare_speaks :
    ∀ text ∈ ["3", "sq"], Speaks havingSquare.dictionary text := by
  have facts : (havingSquare.dictionary.translate "3").isWord = false ∧
      havingSquare.dictionary.lookup "sq" = some ⟨62, "sq"⟩ ∧
      [⟨62, "sq"⟩, handleOf (.stack .dup), handleOf (.math .mul)].all
        (spokenAmong havingSquare.dictionary
          [⟨62, "sq"⟩, handleOf (.stack .dup), handleOf (.math .mul)]) =
        true := by
    decide +kernel
  obtain ⟨three, found, spoken⟩ := facts
  intro text mem w meant
  simp only [List.mem_cons, List.not_mem_nil, or_false] at mem
  obtain rfl | rfl := mem
  · rw [meant] at three
    cases three
  · rw [translate_of_lookup found] at meant
    cases meant
    exact understood_of_all spoken List.mem_cons_self

/-- The square of 3 is the same both ways, and so is the fault where there is
nothing to take the square of. -/
theorem square_compiled :
    ((leftBy (squaring " 3 sq")).data.depth = 1 ∧
      ∃ k b, processSource Primitives.pure k "" " : f 3 sq ; f" havingSquare =
          .ok () b ∧
        SameValues (leftBy (squaring " 3 sq")) b ∧
        b.returns.items = (leftBy (squaring " 3 sq")).returns.items) ∧
    faultOf (squaring " sq") = some (.underflow .data) ∧
      ∃ k report b,
        processSource Primitives.pure k "" " : f sq ; f" havingSquare =
          .error (.failed report) b ∧
        report.fault = .underflow .data := by
  have before : havingSquare.cursor = none ∧
      havingSquare.interpreting = true ∧
      havingSquare.dictionary.lookup ":" = havingSquare.builtins.find? ":" ∧
      havingSquare.dictionary.lookup ";" =
        havingSquare.builtins.find? ";" := by decide +kernel
  have after : isOk (squaring " 3 sq") = true ∧
      (leftBy (squaring " 3 sq")).data.depth = 1 ∧
      faultOf (squaring " sq") = some (.underflow .data) := by decide +kernel
  obtain ⟨idle, mode, colon, semicolon⟩ := before
  obtain ⟨done, depth, fault⟩ := after
  have speak := havingSquare_speaks
  have alone : ∀ text ∈ ["sq"], Speaks havingSquare.dictionary text :=
    fun text mem => speak text (List.mem_cons_of_mem _ mem)
  constructor
  · refine ⟨depth, ?_⟩
    exact (compiled_eq_interpreted (f := "f") (born_having _) idle mode colon
      semicolon speak (by decide) (by decide)
      (spells_of_toList (by decide) (by decide))
      (spells_of_toList (by decide) (by decide)) "" "" 50).1 _
      (eq_ok_of_isOk done)
  · refine ⟨fault, ?_⟩
    have spells : Spells " sq".toList ["sq"] :=
      spells_of_toList (by decide) (by decide)
    have spells' : Spells " : f sq ; f".toList [":", "f", "sq", ";", "f"] :=
      spells_of_toList (by decide) (by decide)
    obtain ⟨report, failed, same⟩ := exists_report fault
    obtain ⟨k, report', b, ran, fault', _⟩ := (compiled_eq_interpreted
      (f := "f") (born_having _) idle mode colon semicolon alone (by decide)
      (by decide) spells spells' "" "" 50).2 report _ failed
    exact ⟨k, report', b, ran, fault'.trans same⟩

end Forth.Machine
