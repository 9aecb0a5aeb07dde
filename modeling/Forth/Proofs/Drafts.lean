import Forth.Proofs.Effects
import Forth.Proofs.Legible
import Forth.Proofs.Moves

/-!
# Drafts

A `Draft` is what matters while the text of a definition is read: the tokens
that are left, the cells that have been compiled, the values on the data
stack, the mode.  `Drafting` says that a machine has come to a draft, and
`Passes` that a machine which has come to one draft comes to another by
reading tokens.

Each kind of token is one lemma (`passes_builtin` for words that are
executed, `passes_reference` and `passes_literal` for cells that are
compiled), a cell with its tokens another (`passes_plain`,
`passes_operand`), and the cells of a definition follow by induction along
the decompiler (`passes_tokens`).  `Opening.begins` and `passes_definition`
are the text as a whole: the word that it defines has the cells of the word
that was written, with references to that one turned to the new one.
-/

namespace Forth

open Relation

/-- A cell with the references to one word turned to another. -/
def Cell.redirect (w u : Handle) : Cell → Cell
  | .word v => .word (if v = w then u else v)
  | .literal v => .literal v

namespace Machine

/-- A text that can be read back is about to be read, for a word of the same
name. -/
structure Copying (m : Machine .none) (w u : Handle) : Prop
    extends Legible m w where
  stocked : Stocked m
  named : u.name = w.name

/-! ## Drafts -/

/-- What matters while the text of a definition is read. -/
structure Draft where
  /-- The cells of the new word so far. -/
  cells : List Cell
  /-- The values on the data stack. -/
  items : List Value
  interpreting : Bool
  immediate : Bool
  /-- The tokens that are left. -/
  unread : List String

/-- The machine `t`, which was `m` before the text, has these tokens of it
left. -/
structure Reading (m : Machine .none) (items : List Value) (mode : Bool)
    (texts : List String) (t : Machine .none) : Prop where
  stocked : Stocked t
  items : t.data.items = items
  mode : t.interpreting = mode
  whole : t.input.feed = .whole
  unread : Spells t.input.unread texts
  memory : t.memory = m.memory
  output : t.output = m.output
  returns : t.returns = m.returns
  idle : t.cursor = none
  going : t.finished = false

/-- No word of the text has been defined yet. -/
structure Opening (m : Machine .none) (texts : List String)
    (t : Machine .none) : Prop
    extends Reading m m.data.items true texts t where
  dictionary : t.dictionary = m.dictionary

/-- The machine has come to a draft of the word `u`. -/
structure Drafting (m : Machine .none) (u : Handle) (d : Draft)
    (t : Machine .none) : Prop
    extends Reading m d.items d.interpreting d.unread t where
  fresh : m.dictionary.word? u = none
  under : t.underConstruction = some u
  word : ∃ location, t.dictionary.word? u = some
    { Word.ofCells u.name location d.cells.toArray with
      immediate := d.immediate }
  names : ∀ name, t.dictionary.lookup name =
    if name = u.name then some u else m.dictionary.lookup name
  older : ∀ v word, m.dictionary.word? v = some word →
    t.dictionary.word? v = some word

section Drafting

variable {m t : Machine .none} {u : Handle} {cells : List Cell}
  {items : List Value} {mode mark : Bool} {text : String}
  {texts : List String}

/-- Reading a token changes the input and the place only. -/
theorem Reading.reads (h : Reading m items mode (text :: texts) t) :
    ∃ token rest, token.text = text ∧
      t.nextToken = (some token,
        { t with input := rest, location := some token.location }) ∧
      Reading m items mode texts
        { t with input := rest, location := some token.location } := by
  obtain ⟨token, rest, read, htext, whole, unread⟩ :=
    nextToken_of_spells h.whole h.unread
  refine ⟨token, rest, htext, read, ?_⟩
  exact { h with
    stocked := h.stocked.of_same rfl rfl rfl
    whole := whole
    unread := unread }

theorem Opening.reads (h : Opening m (text :: texts) t) :
    ∃ token t', token.text = text ∧ t.nextToken = (some token, t') ∧
      Opening m texts t' ∧ t'.data = t.data := by
  obtain ⟨token, rest, htext, read, after⟩ := h.toReading.reads
  exact ⟨token, _, htext, read, { after with dictionary := h.dictionary },
    rfl⟩

theorem Drafting.reads
    (h : Drafting m u ⟨cells, items, mode, mark, text :: texts⟩ t) :
    ∃ token t', token.text = text ∧ t.nextToken = (some token, t') ∧
      Drafting m u ⟨cells, items, mode, mark, texts⟩ t' ∧
      t'.data = t.data := by
  obtain ⟨token, rest, htext, read, after⟩ := h.toReading.reads
  exact ⟨token, _, htext, read, { h with toReading := after }, rfl⟩

/-- Which word is at work and who is to blame does not matter. -/
theorem Reading.aside (h : Reading m items mode texts t)
    (executing : Option Handle) (blame : Option CallTrace) :
    Reading m items mode texts
      { t with executing := executing, blame := blame } :=
  { h with stocked := h.stocked.of_same rfl rfl rfl }

theorem Drafting.aside {d : Draft} (h : Drafting m u d t)
    (executing : Option Handle) (blame : Option CallTrace) :
    Drafting m u d { t with executing := executing, blame := blame } :=
  { h with toReading := h.toReading.aside executing blame }

/-- Changing the word under construction. -/
theorem Drafting.changes {cells' : List Cell} {mark' : Bool}
    {f : Word .none → Word .none}
    (h : Drafting m u ⟨cells, items, mode, mark, texts⟩ t)
    (stocked : Stocked { t with dictionary := t.dictionary.change u f })
    (becomes : ∀ location,
      f { Word.ofCells u.name location cells.toArray with
        immediate := mark } =
      { Word.ofCells u.name location cells'.toArray with
        immediate := mark' }) :
    Drafting m u ⟨cells', items, mode, mark', texts⟩
      { t with dictionary := t.dictionary.change u f } := by
  obtain ⟨location, word⟩ := h.word
  refine { h with
    stocked := stocked
    word := ⟨location, ?_⟩
    older := ?_ }
  · show (t.dictionary.change u f).word? u = _
    rw [Dictionary.word?_change, if_pos rfl, word]
    exact congrArg some (becomes location)
  · intro v old present
    -- An older word is another one, since the new word was not there.
    have other : u.serial ≠ v.serial := by
      intro same
      have absent := h.fresh
      unfold Dictionary.word? at absent present
      rw [same, present] at absent
      cases absent
    show (t.dictionary.change u f).word? v = _
    rw [Dictionary.word?_change, if_neg other]
    exact h.older v old present

/-- Appending a cell. -/
theorem Drafting.grows
    (h : Drafting m u ⟨cells, items, mode, mark, texts⟩ t) (c : Cell) :
    Drafting m u ⟨cells ++ [c], items, mode, mark, texts⟩
      { t with dictionary := t.dictionary.change u (Word.grow c) } := by
  refine h.changes (h.stocked.compiled h.under c) ?_
  intro location
  simp [Word.grow, Word.ofCells]

/-- Changing the values on the data stack. -/
theorem Drafting.leaves {x : Act .none Unit} {items' : List Value}
    (h : Drafting m u ⟨cells, items, mode, mark, texts⟩ t)
    (leaves : Leaves x t items') :
    ∃ t', x t = .ok () t' ∧
      Drafting m u ⟨cells, items', mode, mark, texts⟩ t' := by
  obtain ⟨data, hitems, done⟩ := leaves
  refine ⟨_, done, ?_⟩
  exact { h with
    stocked := h.stocked.of_same rfl rfl rfl
    items := hitems }

/-- Turning to a mode. -/
theorem Drafting.turns
    (h : Drafting m u ⟨cells, items, mode, mark, texts⟩ t) (mode' : Bool) :
    Drafting m u ⟨cells, items, mode', mark, texts⟩
      (t.setInterpreting mode') := by
  rw [setInterpreting_eq]
  exact { h with
    stocked := h.stocked.of_same rfl rfl rfl
    mode := rfl }

end Drafting

/-! ## One token -/

/-- From one draft to another by reading tokens. -/
def Passes (m : Machine .none) (u : Handle) (d d' : Draft) : Prop :=
  ∀ t, Drafting m u d t →
    ∃ t', ReflTransGen (Consumes Primitives.pure) t t' ∧ Drafting m u d' t'

theorem Passes.refl (m : Machine .none) (u : Handle) (d : Draft) :
    Passes m u d d :=
  fun t h => ⟨t, .refl, h⟩

theorem Passes.trans {m : Machine .none} {u : Handle} {d₁ d₂ d₃ : Draft}
    (first : Passes m u d₁ d₂) (second : Passes m u d₂ d₃) :
    Passes m u d₁ d₃ := by
  intro t h
  obtain ⟨t₁, consumed₁, h₁⟩ := first t h
  obtain ⟨t₂, consumed₂, h₂⟩ := second t₁ h₁
  exact ⟨t₂, consumed₁.trans consumed₂, h₂⟩

/-- A name that is defined stands for its word. -/
theorem translate_of_lookup {d : Dictionary .none} {text : String}
    {v : Handle} (found : d.lookup text = some v) :
    d.translate text = .word v := by
  unfold Dictionary.translate
  rw [found]

/-- A text that is defined in neither of two dictionaries, or in both by the
same word, stands for the same. -/
theorem translate_congr {d d' : Dictionary .none} {text : String}
    (same : d'.lookup text = d.lookup text) :
    d'.translate text = d.translate text := by
  unfold Dictionary.translate
  rw [same]

/-- A built-in word is executed at top level. -/
theorem processToken_of_builtin {b : Builtin} {token : Token}
    {t t' : Machine .none} (stocked : Stocked t)
    (found : t.dictionary.lookup token.text = some (handleOf b))
    (runs : t.interpreting = true ∨ b.entry.immediate = true)
    (acted : b.act (execute Primitives.pure 0)
      { t with
        executing := some (handleOf b), blame := t.forgetBlame.blame } =
      .ok () t') :
    processToken Primitives.pure 1 token t =
      .ok () { t' with executing := t.executing } := by
  have meant : t.interpreting = true ∨
      t.dictionary.isImmediate (handleOf b) = true := by
    rw [stocked.isImmediate b]
    exact runs
  unfold processToken
  rw [translate_of_lookup found]
  unfold processValue
  dsimp only
  rw [if_pos meant, execute]
  dsimp only
  rw [forgetBlame_eq]
  dsimp only
  rw [stocked.body b]
  exact invoke_of_ok acted

section Token

variable {m : Machine .none} {w u : Handle} {cells : List Cell}
  {items : List Value} {mode mark : Bool} {texts : List String}

/-- A token takes the draft where processing it takes the machine. -/
theorem passes_token {text : String} {d : Draft}
    (does : ∀ token x, token.text = text →
      Drafting m u ⟨cells, items, mode, mark, texts⟩ x →
      ∃ y, processToken Primitives.pure 1 token x = .ok () y ∧
        Drafting m u d y) :
    Passes m u ⟨cells, items, mode, mark, text :: texts⟩ d := by
  intro t h
  obtain ⟨token, x, htext, read, after, _⟩ := h.reads
  obtain ⟨y, done, drafted⟩ := does token x htext after
  exact ⟨y, .single ⟨1, token, x, h.going, read, done⟩, drafted⟩

/-- So does a built-in word that is executed. -/
theorem passes_builtin (copy : Copying m w u)
    {b : Builtin} (hb : b ∈ spellingWords) {d : Draft}
    (runs : mode = true ∨ b.entry.immediate = true)
    (does : ∀ x, Drafting m u ⟨cells, items, mode, mark, texts⟩ x →
      ∃ y, b.act (execute Primitives.pure 0) x = .ok () y ∧
        Drafting m u d y) :
    Passes m u ⟨cells, items, mode, mark, b.entry.name :: texts⟩ d := by
  refine passes_token fun token x htext h => ?_
  obtain ⟨y, acted, after⟩ := does _
    (h.aside (some (handleOf b)) x.forgetBlame.blame)
  obtain ⟨found, other⟩ := copy.spelling b hb
  have found' : x.dictionary.lookup token.text = some (handleOf b) := by
    rw [htext, h.names, if_neg (fun same => other (copy.named ▸ same.symm))]
    exact found
  have done := processToken_of_builtin h.stocked found' (h.mode ▸ runs) acted
  exact ⟨_, done, after.aside x.executing y.blame⟩

/-- `[` turns to interpreting. -/
theorem passes_interpretMode (copy : Copying m w u) :
    Passes m u ⟨cells, items, mode, mark, "[" :: texts⟩
      ⟨cells, items, true, mark, texts⟩ := by
  refine passes_builtin (b := .compile .interpretMode) copy
    (by decide) (.inr rfl) ?_
  exact fun x h => ⟨_, Act.run_of_ok rfl, h.turns true⟩

/-- `]` turns to compiling. -/
theorem passes_compileMode (copy : Copying m w u) :
    Passes m u ⟨cells, items, mode, mark, "]" :: texts⟩
      ⟨cells, items, false, mark, texts⟩ := by
  refine passes_builtin (b := .compile .compileMode) copy
    (by decide) (.inr rfl) ?_
  exact fun x h => ⟨_, Act.run_of_ok rfl, h.turns false⟩

/-- `,` appends the value on top. -/
theorem passes_comma (copy : Copying m w u)
    {v : Value} :
    Passes m u ⟨cells, v :: items, mode, mark, "," :: texts⟩
      ⟨cells ++ [.ofValue v], items, mode, mark, texts⟩ := by
  refine passes_builtin (b := .compile .comma) copy (by decide)
    (.inr rfl) ?_
  intro x h
  obtain ⟨data, hitems, popped⟩ := pop_of_items h.items
  have below : Drafting m u ⟨cells, items, mode, mark, texts⟩
      { x with data := data } :=
    { h with
      stocked := h.stocked.of_same rfl rfl rfl
      items := hitems }
  refine ⟨_, Act.run_of_ok ?_, below.grows (.ofValue v)⟩
  rw [CompileWord.act, Act.bind_apply, popped]
  exact compile_of_under below.stocked below.under (.ofValue v)

/-- `word` reads a token and leaves its text. -/
theorem passes_word (copy : Copying m w u)
    {text : String} :
    Passes m u ⟨cells, items, true, mark, "word" :: text :: texts⟩
      ⟨cells, .string text :: items, true, mark, texts⟩ := by
  refine passes_builtin (b := .console .word) copy (by decide)
    (.inl rfl) ?_
  intro x h
  obtain ⟨token, y, htext, read, after, _⟩ := h.reads
  have acted : (ConsoleWord.act .word : Act .none Unit) x =
      .ok () { x.nextToken.2 with
        data := x.nextToken.2.data.push
          (.string ((x.nextToken.1.map Token.text).getD "")) } := rfl
  rw [read] at acted
  refine ⟨_, Act.run_of_ok acted, ?_⟩
  exact { after with
    stocked := after.stocked.of_same rfl rfl rfl
    items := congr (congrArg _ (congrArg _ htext)) after.items }

/-- `drop` takes the value on top away. -/
theorem passes_drop (copy : Copying m w u)
    {v : Value} :
    Passes m u ⟨cells, v :: items, true, mark, "drop" :: texts⟩
      ⟨cells, items, true, mark, texts⟩ := by
  refine passes_builtin (b := .stack .drop) copy (by decide)
    (.inl rfl) ?_
  intro x h
  obtain ⟨y, acted, after⟩ := h.leaves (leaves_drop h.items)
  exact ⟨y, Act.run_of_ok acted, after⟩

/-! ## References and values -/

section Reference

variable {v : Handle}

/-- While the text is read a name leads where the new word is to refer
to. -/
theorem Drafting.lookup_reference {d : Draft} {t : Machine .none}
    (h : Drafting m u d t) (copy : Copying m w u)
    (found : m.dictionary.lookup v.name = some v) :
    t.dictionary.lookup v.name = some (if v = w then u else v) := by
  rw [h.names]
  by_cases same : v = w
  · subst same
    rw [if_pos copy.named.symm, if_pos rfl]
  · have other : v.name ≠ u.name := by
      intro hname
      rw [hname, copy.named, copy.current] at found
      exact same (Option.some.inj found).symm
    rw [if_neg other, if_neg same]
    exact found

/-- The new word is not immediate yet, and other words are so if they
were. -/
theorem Drafting.isImmediate_reference {t : Machine .none}
    (h : Drafting m u ⟨cells, items, mode, false, texts⟩ t)
    (copy : Copying m w u) (found : m.dictionary.lookup v.name = some v)
    (normal : m.dictionary.isImmediate v = false) :
    t.dictionary.isImmediate (if v = w then u else v) = false := by
  unfold Dictionary.isImmediate at normal ⊢
  split
  · obtain ⟨location, word⟩ := h.word
    rw [word]
    rfl
  · obtain ⟨_, word, present, _⟩ := copy.stocked.names _ _ found
    rw [h.older v word present]
    rw [present] at normal
    exact normal

/-- A name is compiled as a reference. -/
theorem passes_reference (copy : Copying m w u)
    (found : m.dictionary.lookup v.name = some v)
    (normal : m.dictionary.isImmediate v = false) :
    Passes m u ⟨cells, items, false, false, v.name :: texts⟩
      ⟨cells ++ [Cell.redirect w u (.word v)], items, false, false,
        texts⟩ := by
  refine passes_token fun token x htext h => ?_
  have found' := h.lookup_reference copy found
  have waits : ¬ (x.interpreting = true ∨
      x.dictionary.isImmediate (if v = w then u else v) = true) := by
    rw [h.mode, h.isImmediate_reference copy found normal]
    simp
  have done : processToken Primitives.pure 1 token x =
      .ok () { x with
        dictionary := x.dictionary.change u
          (Word.grow (Cell.redirect w u (.word v))) } := by
    unfold processToken
    rw [htext, translate_of_lookup found']
    unfold processValue
    dsimp only
    rw [if_neg waits]
    exact Act.run_of_ok (compile_of_under h.stocked h.under _)
  exact ⟨_, done, h.grows _⟩

/-- `word_from_name` leaves the word of a name, and that it is one. -/
theorem passes_wordFromName (copy : Copying m w u)
    (found : m.dictionary.lookup v.name = some v) :
    Passes m u
      ⟨cells, .string v.name :: items, true, mark,
        "word_from_name" :: texts⟩
      ⟨cells, .bool true :: .word (if v = w then u else v) :: items, true,
        mark, texts⟩ := by
  refine passes_builtin (b := .name .wordFromName) copy (by decide)
    (.inl rfl) ?_
  intro x h
  have leaves := leaves_wordFromName h.items
  rw [translate_of_lookup (h.lookup_reference copy found)] at leaves
  obtain ⟨y, acted, after⟩ := h.leaves leaves
  exact ⟨y, Act.run_of_ok acted, after⟩

/-- A reference that is put in by way of its name, so that the word does not
run. -/
theorem passes_byName (copy : Copying m w u)
    (found : m.dictionary.lookup v.name = some v) :
    Passes m u
      ⟨cells, items, mode, mark,
        Decompile.bracketed (Decompile.byName v.name) ++ texts⟩
      ⟨cells ++ [Cell.redirect w u (.word v)], items, false, mark,
        texts⟩ :=
  (passes_interpretMode copy).trans <|
    (passes_word copy).trans <|
    (passes_wordFromName copy found).trans <|
    (passes_drop copy).trans <|
    (passes_compileMode copy).trans <|
    passes_comma copy

end Reference

section Literal

variable {v : Value}

/-- A value is read as what it is. -/
theorem Drafting.translate_value {d : Draft} {t : Machine .none}
    (h : Drafting m u d t) (copy : Copying m w u)
    (notWord : v.isWord = false)
    (means : m.dictionary.translate v.text = v) :
    t.dictionary.translate v.text = v := by
  have other : v.text ≠ u.name := by
    intro same
    rw [same, copy.named, translate_of_lookup copy.current] at means
    rw [← means] at notWord
    cases notWord
  refine (translate_congr ?_).trans means
  rw [h.names, if_neg other]

/-- A value is compiled behind `lit`. -/
theorem passes_literal (copy : Copying m w u)
    (notWord : v.isWord = false)
    (means : m.dictionary.translate v.text = v) :
    Passes m u ⟨cells, items, false, mark, v.text :: texts⟩
      ⟨cells ++ [.word (handleOf (.thread .lit))] ++ [.literal v], items,
        false, mark, texts⟩ := by
  refine passes_token fun token x htext h => ?_
  have compiling : ¬ x.interpreting = true := by simp [h.mode]
  have done : processToken Primitives.pure 1 token x =
      .ok () { x with
        dictionary := (x.dictionary.change u
          (Word.grow (.word (handleOf (.thread .lit))))).change u
          (Word.grow (.literal v)) } := by
    unfold processToken
    rw [htext, h.translate_value copy notWord means,
      processValue_of_not_word _ _ notWord, if_neg compiling]
    exact Act.run_of_ok (compileLiteral_of_under h.stocked h.under v)
  exact ⟨_, done, (h.grows _).grows _⟩

/-- Between brackets a value is pushed. -/
theorem passes_value (copy : Copying m w u)
    (notWord : v.isWord = false)
    (means : m.dictionary.translate v.text = v) :
    Passes m u ⟨cells, items, true, mark, v.text :: texts⟩
      ⟨cells, v :: items, true, mark, texts⟩ := by
  refine passes_token fun token x htext h => ?_
  have done : processToken Primitives.pure 1 token x =
      .ok () { x with data := x.data.push v } := by
    unfold processToken
    rw [htext, h.translate_value copy notWord means,
      processValue_of_not_word _ _ notWord, if_pos h.mode]
    rfl
  refine ⟨_, done, ?_⟩
  exact { h with
    stocked := h.stocked.of_same rfl rfl rfl
    items := congrArg _ h.items }

/-- A value that is appended alone. -/
theorem passes_bracketed (copy : Copying m w u)
    (notWord : v.isWord = false)
    (means : m.dictionary.translate v.text = v) :
    Passes m u
      ⟨cells, items, mode, mark, Decompile.bracketed [v.text] ++ texts⟩
      ⟨cells ++ [.literal v], items, false, mark, texts⟩ := by
  rw [← Cell.ofValue_of_not_word notWord]
  exact (passes_interpretMode copy).trans <|
    (passes_value copy notWord means).trans <|
    (passes_compileMode copy).trans <|
    passes_comma copy

end Literal

/-! ## Cells -/

/-- A cell that calls a built-in word is a reference to it. -/
theorem eq_of_calls {c : Cell} {h : Handle}
    (calls : Decompile.calls c (some h) = true) : c = .word h := by
  cases c with
  | word v =>
    have same : h = v := by simpa [Decompile.calls] using calls
    rw [same]
  | literal v => cases calls

/-- A built-in word is not a thread. -/
theorem Copying.ne_builtin (copy : Copying m w u) (b : Builtin) :
    handleOf b ≠ w := by
  obtain ⟨cells, body⟩ := copy.composite
  intro same
  rw [← same, copy.stocked.body b] at body
  cases body

/-- References to built-in words stay. -/
theorem Copying.redirect_builtin (copy : Copying m w u) (b : Builtin) :
    Cell.redirect w u (.word (handleOf b)) = .word (handleOf b) :=
  congrArg Cell.word (if_neg (copy.ne_builtin b))

/-- The decompiler knows the built-in words by their handles. -/
theorem Stocked.decompileContext {t : Machine .none} (stocked : Stocked t) :
    t.decompileContext.lit = some (handleOf (.thread .lit)) ∧
      t.decompileContext.exit = some (handleOf (.thread .exit)) :=
  ⟨stocked.builtin (.thread .lit), stocked.builtin (.thread .exit)⟩

/-- The tokens of a cell that is executed compile it. -/
theorem passes_plain (copy : Copying m w u) {c : Cell}
    (mem : c ∈ (m.dictionary.cells w).toList) :
    Passes m u
      ⟨cells, items, false, false,
        Decompile.plain m.decompileContext c ++ texts⟩
      ⟨cells ++ [c.redirect w u], items, false, false, texts⟩ := by
  cases c with
  | word v =>
    obtain ⟨found, _⟩ := copy.references v mem
    rw [Decompile.plain]
    by_cases runs : m.decompileContext.isImmediate v = true
    · rw [if_pos runs]
      exact passes_byName copy found
    · rw [if_neg runs]
      exact passes_reference copy found (eq_false_of_ne_true runs)
  | literal v =>
    obtain ⟨notWord, _, means⟩ := copy.literals v mem
    exact passes_bracketed copy notWord means

/-- The tokens of a cell behind `lit` compile both. -/
theorem passes_operand (copy : Copying m w u) {c : Cell}
    (mem : c ∈ (m.dictionary.cells w).toList) :
    Passes m u
      ⟨cells, items, false, false,
        Decompile.operand m.decompileContext c ++ texts⟩
      ⟨cells ++ [.word (handleOf (.thread .lit))] ++ [c.redirect w u],
        items, false, false, texts⟩ := by
  cases c with
  | word v =>
    obtain ⟨found, _⟩ := copy.spelling (.thread .lit) (by decide)
    have normal := copy.stocked.isImmediate (.thread .lit)
    rw [← copy.redirect_builtin (.thread .lit)]
    exact (passes_reference copy found normal).trans (passes_plain copy mem)
  | literal v =>
    obtain ⟨notWord, _, means⟩ := copy.literals v mem
    exact passes_literal copy notWord means

/-- **The tokens of a row of cells compile it**, up to the `exit` at its
end. -/
theorem passes_tokens (copy : Copying m w u) {row : List Cell}
    (within : ∀ c ∈ row, c ∈ (m.dictionary.cells w).toList)
    (closed : row.getLast? = some (.word (handleOf (.thread .exit))))
    (apart : Decompile.lastIsOperand m.decompileContext row = false) :
    Passes m u
      ⟨cells, items, false, false,
        Decompile.tokens m.decompileContext row ++ texts⟩
      ⟨cells ++ row.dropLast.map (Cell.redirect w u), items, false, false,
        texts⟩ := by
  obtain ⟨lit, exit⟩ := copy.stocked.decompileContext
  induction row using Decompile.tokens.induct m.decompileContext
      generalizing cells with
  | case1 => cases closed
  | case2 c last =>
    have spelled : Decompile.tokens m.decompileContext [c] = [] := by
      rw [Decompile.tokens, if_pos last]
    rw [spelled, List.dropLast_singleton, List.map_nil, List.append_nil]
    exact .refl m u _
  | case3 c other =>
    cases closed
    simp [Decompile.calls, exit] at other
  | case4 c d rest pair ih =>
    -- A `lit` and its operand; the operand is not the last cell.
    rw [Decompile.lastIsOperand, if_pos pair, Bool.or_eq_false_iff] at apart
    obtain ⟨e, rest, rfl⟩ := List.exists_cons_of_ne_nil
      (List.isEmpty_eq_false_iff.1 apart.1)
    have hc : c = .word (handleOf (.thread .lit)) := eq_of_calls (lit ▸ pair)
    have split : cells ++ (c :: d :: e :: rest).dropLast.map
        (Cell.redirect w u) =
        cells ++ [.word (handleOf (.thread .lit))] ++ [d.redirect w u] ++
          (e :: rest).dropLast.map (Cell.redirect w u) := by
      rw [hc]
      simp [copy.redirect_builtin]
    rw [Decompile.tokens, if_pos pair, List.append_assoc, split]
    refine (passes_operand copy (within d (by simp))).trans ?_
    exact ih (fun c hc => within c (by simp [hc])) (by simpa using closed)
      apart.2
  | case5 c d rest single ih =>
    rw [Decompile.lastIsOperand, if_neg single] at apart
    have split : cells ++ (c :: d :: rest).dropLast.map (Cell.redirect w u) =
        cells ++ [c.redirect w u] ++
          (d :: rest).dropLast.map (Cell.redirect w u) := by simp
    rw [Decompile.tokens, if_neg single, List.append_assoc, split]
    refine (passes_plain copy (within c (by simp))).trans ?_
    exact ih (fun c hc => within c (List.mem_cons_of_mem _ hc))
      (by simpa using closed) apart

/-! ## The end of the text -/

/-- Letting a finished definition be known changes the events only. -/
theorem Drafting.announces {d : Draft} {t : Machine .none}
    (h : Drafting m u d t) :
    ∃ t', CompileWord.announce t = .ok () t' ∧ Drafting m u d t' ∧
      t'.data = t.data := by
  rw [CompileWord.announce_apply]
  split
  · split
    · next absent =>
      rw [h.under] at absent
      cases absent
    · refine ⟨_, rfl, ?_⟩
      rw [record_eq]
      exact ⟨{ h with stocked := h.stocked.of_same rfl rfl rfl }, rfl⟩
  · exact ⟨t, rfl, h, rfl⟩

/-- What `;` does: it appends `exit` and turns to interpreting. -/
theorem Drafting.closes {t : Machine .none}
    (h : Drafting m u ⟨cells, items, mode, mark, texts⟩ t) :
    ∃ t', (CompileWord.act .endDefine : Act .none Unit) t = .ok () t' ∧
      Drafting m u ⟨cells ++ [.word (handleOf (.thread .exit))], items, true,
        mark, texts⟩ t' ∧ t'.data = t.data := by
  have exit : t.builtins.find? "exit" = some (handleOf (.thread .exit)) :=
    h.stocked.builtin (.thread .exit)
  have compiled := compile_of_under h.stocked h.under
    (.word (handleOf (.thread .exit)))
  have grown := h.grows (.word (handleOf (.thread .exit)))
  obtain ⟨t', announced, after, same⟩ := (grown.turns true).announces
  refine ⟨t', ?_, after, ?_⟩
  · show (Act.builtin "exit" >>= fun h => Act.compile (.word h) >>=
      fun _ => Act.setInterpreting true >>= fun _ =>
        CompileWord.announce) t = .ok () t'
    rw [Act.bind_apply, Act.builtin_apply, exit]
    dsimp only
    rw [Act.bind_apply, compiled]
    exact announced
  · rw [same, setInterpreting_eq]

/-- `;` appends `exit` and turns to interpreting. -/
theorem passes_endDefine (copy : Copying m w u) :
    Passes m u ⟨cells, items, mode, mark, ";" :: texts⟩
      ⟨cells ++ [.word (handleOf (.thread .exit))], items, true, mark,
        texts⟩ := by
  refine passes_builtin (b := .compile .endDefine) copy (by decide)
    (.inr rfl) ?_
  intro x h
  obtain ⟨y, acted, after, _⟩ := h.closes
  exact ⟨y, Act.run_of_ok acted, after⟩

/-- `immediate` marks the new word. -/
theorem passes_immediate (copy : Copying m w u) :
    Passes m u ⟨cells, items, mode, mark, "immediate" :: texts⟩
      ⟨cells, items, mode, true, texts⟩ := by
  refine passes_builtin (b := .compile .immediate) copy (by decide)
    (.inr rfl) ?_
  intro x h
  have acted : CompileWord.act .immediate x =
      .ok () { x with dictionary := x.dictionary.change u Word.mark } := by
    rw [CompileWord.immediate_apply, h.under]
    rfl
  have stocked : Stocked { x with
      dictionary := x.dictionary.change u Word.mark } := by
    have touches := Act.touches_immediate x
    rw [acted] at touches
    exact h.stocked.of_grows touches.grows
  exact ⟨_, Act.run_of_ok acted, h.changes stocked fun _ => rfl⟩

end Token

/-! ## The beginning of the text -/

section Beginning

variable {m : Machine .none} {texts : List String}

/-- A word that has been created is a draft without cells. -/
theorem Opening.creates {t : Machine .none} (h : Opening m texts t)
    (name : String) :
    Drafting m ⟨m.dictionary.words.size, name⟩
        ⟨[], m.data.items, true, false, texts⟩ (t.createWord name).2 ∧
      (t.createWord name).2.data = t.data := by
  have touches := Act.touches_createWord name t
  have stocked : Stocked (t.createWord name).2 :=
    h.stocked.of_grows touches.grows
  have created : (t.createWord name).2 =
      { t with
        events := (t.record (.creating name)).events
        dictionary := (m.dictionary.define
          (.ofCells name t.definitionSite #[])).2
        underConstruction := some ⟨m.dictionary.words.size, name⟩ } := by
    rw [← h.dictionary]
    unfold createWord
    rw [record_eq]
    rfl
  rw [created] at stocked ⊢
  refine ⟨?_, rfl⟩
  exact { h with
    stocked := stocked
    fresh := Array.getElem?_eq_none (Nat.le_refl _)
    under := rfl
    word := ⟨_, m.dictionary.word?_define_self _⟩
    names := m.dictionary.lookup_define _
    older := fun _ _ present => Dictionary.word?_define_of_some present _ }

/-- `:` reads the name and begins the definition. -/
theorem Opening.defines {name : String} {t : Machine .none}
    (h : Opening m (":" :: name :: texts) t)
    (found : m.dictionary.lookup ":" =
      some (handleOf (.compile .define))) :
    ∃ t', Consumes Primitives.pure t t' ∧
      Drafting m ⟨m.dictionary.words.size, name⟩
        ⟨[], m.data.items, false, false, texts⟩ t' ∧ t'.data = t.data := by
  obtain ⟨token, t₁, htext, read, h₁, data₁⟩ := h.reads
  have found₁ : t₁.dictionary.lookup token.text =
      some (handleOf (.compile .define)) := by
    rw [h₁.dictionary, htext]
    exact found
  -- The machine that `:` finds, and the one that has read the name.
  have h₂ : Opening m (name :: texts) { t₁ with
      executing := some (handleOf (.compile .define))
      blame := t₁.forgetBlame.blame } :=
    { h₁.toReading.aside _ _ with dictionary := h₁.dictionary }
  obtain ⟨token', t₃, hname, readName, h₃, data₃⟩ := h₂.reads
  obtain ⟨created, same⟩ := h₃.creates name
  have named : Act.nextTokenText { t₁ with
      executing := some (handleOf (.compile .define))
      blame := t₁.forgetBlame.blame } = .ok name t₃ := by
    rw [← hname]
    exact Act.nextTokenText_of_read readName
  have acted : (CompileWord.act .define : Act .none Unit) { t₁ with
      executing := some (handleOf (.compile .define))
      blame := t₁.forgetBlame.blame } =
      .ok () ((t₃.createWord name).2.setInterpreting false) := by
    rw [CompileWord.act, Act.bind_apply, named]
    rfl
  have done := processToken_of_builtin h₁.stocked found₁ (.inl h₁.mode)
    (Act.run_of_ok acted)
  refine ⟨_, ⟨1, token, t₁, h.going, read, done⟩,
    (created.turns false).aside _ _, ?_⟩
  show ((t₃.createWord name).2.setInterpreting false).data = t.data
  rw [setInterpreting_eq]
  exact same.trans (data₃.trans data₁)

/-- The same for a word that is to be written again. -/
theorem Opening.begins {w : Handle} {t : Machine .none}
    (h : Opening m (":" :: w.name :: texts) t) (legible : Legible m w) :
    ∃ t', Consumes Primitives.pure t t' ∧
      Drafting m ⟨m.dictionary.words.size, w.name⟩
        ⟨[], m.data.items, false, false, texts⟩ t' := by
  obtain ⟨found, _⟩ := legible.spelling (.compile .define) (by decide)
  obtain ⟨t', consumes, drafting, _⟩ := h.defines found
  exact ⟨t', consumes, drafting⟩

end Beginning

/-! ## The whole text -/

/-- Behind the name the text leads to the cells of the definition. -/
theorem passes_definition {m : Machine .none} {w u : Handle}
    (copy : Copying m w u) {items : List Value} :
    Passes m u
      ⟨[], items, false, false, m.decompile w ++
        ";" :: if m.dictionary.isImmediate w then ["immediate"] else []⟩
      ⟨(m.dictionary.cells w).toList.map (Cell.redirect w u), items, true,
        m.dictionary.isImmediate w, []⟩ := by
  obtain ⟨row, hrow⟩ := List.getLast?_eq_some_iff.1 copy.closed
  have cells : (m.dictionary.cells w).toList.map (Cell.redirect w u) =
      (m.dictionary.cells w).toList.dropLast.map (Cell.redirect w u) ++
        [.word (handleOf (.thread .exit))] := by
    rw [hrow, List.dropLast_concat, List.map_append]
    exact congrArg _ (congrArg (· :: []) (copy.redirect_builtin _))
  rw [cells]
  refine (passes_tokens copy (fun _ hc => hc) copy.closed copy.apart).trans
    ((passes_endDefine copy).trans ?_)
  cases m.dictionary.isImmediate w with
  | true => exact passes_immediate copy
  | false => exact .refl m u _

/-- At the end of the text interpreting is over. -/
theorem Reading.ends {m t : Machine .none} {items : List Value}
    {mode : Bool} (h : Reading m items mode [] t) :
    ∃ rest, interpret Primitives.pure .stop 1 t =
      .ok () { t with input := rest } := by
  obtain ⟨rest, none, _⟩ := nextToken_of_spells_nil h.whole h.unread
  refine ⟨rest, ?_⟩
  rw [interpret]
  simp only [h.going, none, Bool.false_eq_true, if_false]

end Machine

end Forth
