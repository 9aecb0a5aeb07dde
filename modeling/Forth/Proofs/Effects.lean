import Forth.Proofs.Stocked

/-!
# What words leave behind

The words that the outer interpreter is made of, and those that make words,
either change the values on the data stack and nothing else, which is said by
`Leaves`, or append cells to the word under construction and nothing else,
which is said by `compile_of_under` and `compileLiteral_of_under`.  Both are
equations between machines, so that what is not mentioned stays.
-/

namespace Forth

/-- A value that is not a word is held. -/
theorem Cell.ofValue_of_not_word {v : Value} (notWord : v.isWord = false) :
    Cell.ofValue v = .literal v := by
  cases v with
  | word w => cases notWord
  | _ => rfl

namespace Machine

/-- Values that are words are told apart by their kind alone. -/
theorem exists_word_of_isWord {v : Value} (isWord : v.isWord = true) :
    ∃ w, v = .word w := by
  cases v with
  | word w => exact ⟨w, rfl⟩
  | _ => cases isWord

/-! ## Words that only move values -/

/-- Only the values on the data stack change, to the given ones. -/
def Leaves {ε : Type} (x : EStateM ε (Machine .none) Unit) (m : Machine .none)
    (items : List Value) : Prop :=
  ∃ data : Stack Value, data.items = items ∧
    x m = .ok () { m with data := data }

section Words

variable {m : Machine .none} {v : Value} {rest : List Value}

/-- A value that is known to be on top comes off. -/
theorem pop_of_items (h : m.data.items = v :: rest) :
    ∃ data : Stack Value, data.items = rest ∧
      Act.pop m = .ok v { m with data := data } := by
  obtain ⟨data, popped, below⟩ := Stack.pop?_of_cons h
  refine ⟨data, below, ?_⟩
  rw [Act.pop_apply, popped]

/-- What an action leaves behind is left behind by the word that runs it. -/
theorem Leaves.run {x : Act .none Unit} {items : List Value}
    (h : Leaves x m items) : Leaves x.run m items := by
  obtain ⟨data, hitems, done⟩ := h
  exact ⟨data, hitems, Act.run_of_ok done⟩

/-- The top is there twice. -/
theorem leaves_dup (h : m.data.items = v :: rest) :
    Leaves (StackWord.act .dup) m (v :: v :: rest) := by
  refine ⟨m.data.push v, congrArg (List.cons v) h, ?_⟩
  rw [StackWord.act, Act.bind_apply, Act.peek_apply]
  unfold Stack.peek?
  rw [h]
  rfl

/-- The top is gone. -/
theorem leaves_drop (h : m.data.items = v :: rest) :
    Leaves (StackWord.act .drop) m rest := by
  obtain ⟨data, items, popped⟩ := pop_of_items h
  refine ⟨data, items, ?_⟩
  rw [StackWord.act, Act.bind_apply, popped]
  rfl

/-- A text is replaced by what it stands for, with a mark on top that tells
whether that is a word. -/
theorem leaves_wordFromName {name : String}
    (h : m.data.items = .string name :: rest) :
    Leaves (NameWord.act .wordFromName) m
      (.bool (m.dictionary.translate name).isWord ::
        m.dictionary.translate name :: rest) := by
  obtain ⟨data, items, popped⟩ := pop_of_items h
  refine ⟨(data.push (m.dictionary.translate name)).push
    (.bool (m.dictionary.translate name).isWord), ?_, ?_⟩
  · rw [Stack.items_push, Stack.items_push, items]
  · rw [NameWord.act, Act.bind_apply, Act.popText, Act.bind_apply, popped]
    rfl

/-- A word is replaced by whether it also runs while compiling. -/
theorem leaves_isImmediate {w : Handle}
    (h : m.data.items = .word w :: rest) :
    Leaves (NameWord.act .isImmediate) m
      (.bool (m.dictionary.isImmediate w) :: rest) := by
  obtain ⟨data, items, popped⟩ := pop_of_items h
  refine ⟨data.push (.bool (m.dictionary.isImmediate w)), ?_, ?_⟩
  · rw [Stack.items_push, items]
  · rw [NameWord.act, Act.bind_apply, Act.popWord, Act.bind_apply, popped]
    rfl

/-- The mode is pushed. -/
theorem leaves_forthInterpret (h : m.data.items = rest) :
    Leaves (NameWord.act .forthInterpret) m
      (.bool m.interpreting :: rest) :=
  ⟨m.data.push (.bool m.interpreting), congrArg _ h, rfl⟩

/-- Two truth values are replaced by one. -/
theorem leaves_or {a b : Bool}
    (h : m.data.items = .bool b :: .bool a :: rest) :
    Leaves (MathWord.act .or) m (.bool (a || b) :: rest) := by
  obtain ⟨data, items, popped⟩ := pop_of_items h
  obtain ⟨data', items', popped'⟩ :=
    pop_of_items (m := { m with data := data }) items
  refine ⟨data'.push (.bool (a || b)), ?_, ?_⟩
  · rw [Stack.items_push, items']
  · rw [MathWord.act, MathWord.logic, Act.bind_apply, Act.popTruth,
      Act.bind_apply, popped]
    show (Act.popTruth >>= _) { m with data := data } = _
    rw [Act.bind_apply, Act.popTruth, Act.bind_apply, popped']
    rfl

end Words

/-! ## Words that compile -/

section Compiling

variable {m : Machine .none}

/-- With a word under construction a cell is appended to it. -/
theorem compile_of_under (stocked : Stocked m) {u : Handle}
    (under : m.underConstruction = some u) (c : Cell) :
    Act.compile c m =
      .ok () { m with dictionary := m.dictionary.change u (Word.grow c) } := by
  obtain ⟨_, w, cells, present, _, body⟩ := stocked.under u under
  have thread : m.dictionary.body u = .thread cells := by
    unfold Dictionary.body
    rw [present]
    exact body
  rw [Act.compile_apply, under]
  dsimp only
  rw [Dictionary.append_of_thread thread]

/-- Compiling keeps the stock. -/
theorem Stocked.compiled (stocked : Stocked m) {u : Handle}
    (under : m.underConstruction = some u) (c : Cell) :
    Stocked { m with dictionary := m.dictionary.change u (Word.grow c) } := by
  have touches := Act.touches_compile c m
  rw [compile_of_under stocked under] at touches
  exact stocked.of_grows touches.grows

/-- A value that is not a word is pushed or compiled. -/
theorem processValue_of_not_word (p : Primitives .none) (n : Nat) {v : Value}
    (notWord : v.isWord = false) :
    processValue p n v m =
      if m.interpreting then (Act.push v).run m
      else
        Act.run (do
          let lit ← Act.builtin "lit"
          Act.compile (.word lit)
          Act.compile (.literal v)) m := by
  cases v with
  | word w => cases notWord
  | _ => rfl

/-- Compiling a value behind `lit`. -/
theorem compileLiteral_of_under (stocked : Stocked m) {u : Handle}
    (under : m.underConstruction = some u) (v : Value) :
    (do
      let lit ← Act.builtin "lit"
      Act.compile (.word lit)
      Act.compile (.literal v) : Act .none Unit) m =
    .ok () { m with
      dictionary := (m.dictionary.change u
        (Word.grow (.word (handleOf (.thread .lit))))).change u
        (Word.grow (.literal v)) } := by
  have lit : m.builtins.find? "lit" = some (handleOf (.thread .lit)) :=
    stocked.builtin (.thread .lit)
  have first := compile_of_under stocked under
    (.word (handleOf (.thread .lit)))
  have second := compile_of_under (stocked.compiled under
    (.word (handleOf (.thread .lit)))) under (.literal v)
  rw [Act.bind_apply, Act.builtin_apply, lit]
  dsimp only
  rw [Act.bind_apply, first]
  exact second

end Compiling

end Machine

end Forth
