import Forth.Proofs.Stocked
import Forth.Proofs.Tokens

/-!
# Definitions whose text can be read

The decompiler writes references by name and values as they are printed, so
its text says what the definition says only if the names lead back to the
words and the printed values are read as those values.  `Legible` collects
these conditions, `looksLegible` is a test for them.

Main statement: `Legible.spells_definitionText`, that the text of a legible
definition is made of the tokens which the decompiler gives, between `:` with
the name and `;`.
-/

namespace Forth

/-- Whether the last cell is taken for an operand, when the cells are read
from the left and each `lit` takes the cell behind it. -/
def Decompile.lastIsOperand (k : Context) : List Cell → Bool
  | [] => false
  | [_] => false
  | c :: d :: rest =>
    if calls c k.lit then rest.isEmpty || lastIsOperand k rest
    else lastIsOperand k (d :: rest)

namespace Machine

/-- The built-in words that the texts of definitions make use of. -/
def spellingWords : List Builtin :=
  [.compile .define, .compile .endDefine, .compile .immediate,
    .compile .comma, .compile .interpretMode, .compile .compileMode,
    .console .word, .name .wordFromName, .stack .drop, .thread .lit]

/-- A thread whose text can be read back. -/
structure Legible (m : Machine .none) (w : Handle) : Prop where
  composite : ∃ cells, m.dictionary.body w = .thread cells
  /-- The word has its name, and the name is a token. -/
  current : m.dictionary.lookup w.name = some w
  name : IsToken w.name
  /-- So has every word that it refers to. -/
  references : ∀ v, .word v ∈ (m.dictionary.cells w).toList →
    m.dictionary.lookup v.name = some v ∧ IsToken v.name
  /-- The words that the text is written with have their names, and the word
  itself takes none of these. -/
  spelling : ∀ b ∈ spellingWords,
    m.dictionary.lookup b.entry.name = some (handleOf b) ∧
      w.name ≠ b.entry.name
  /-- The values that it holds are written as tokens, and read as what they
  are. -/
  literals : ∀ v, .literal v ∈ (m.dictionary.cells w).toList →
    v.isWord = false ∧ IsToken v.text ∧ m.dictionary.translate v.text = v
  /-- It ends with `exit`, and that one is not an operand. -/
  closed : (m.dictionary.cells w).toList.getLast? =
    some (.word (handleOf (.thread .exit)))
  apart : Decompile.lastIsOperand m.decompileContext
    (m.dictionary.cells w).toList = false

/-- Whether a cell is written so that it is read as what it is.  Of values
only integers and strings are compared. -/
def readsBack (m : Machine .none) : Cell → Bool
  | .word v => decide (m.dictionary.lookup v.name = some v ∧ IsToken v.name)
  | .literal v => !v.isWord && decide (IsToken v.text) &&
      sameCell (.literal (m.dictionary.translate v.text)) (.literal v)

/-- A test for threads whose text can be read back. -/
def looksLegible (m : Machine .none) (w : Handle) : Bool :=
  (m.dictionary.word? w).any (!·.isNative) &&
    decide (m.dictionary.lookup w.name = some w ∧ IsToken w.name) &&
    (m.dictionary.cells w).toList.all m.readsBack &&
    spellingWords.all (fun b => decide
      (m.dictionary.lookup b.entry.name = some (handleOf b) ∧
        w.name ≠ b.entry.name)) &&
    (m.dictionary.cells w).toList.getLast?.any
      (sameCell (.word (handleOf (.thread .exit)))) &&
    !Decompile.lastIsOperand m.decompileContext
      (m.dictionary.cells w).toList

/-- A thread that passes the test is legible. -/
theorem legible_of_looksLegible {m : Machine .none} {w : Handle}
    (h : looksLegible m w = true) : Legible m w := by
  unfold looksLegible at h
  simp only [Bool.and_eq_true, decide_eq_true_eq, List.all_eq_true,
    Bool.not_eq_true'] at h
  obtain ⟨⟨⟨⟨⟨native, current, name⟩, cells⟩, spelling⟩, last⟩, apart⟩ := h
  constructor
  case composite => exact Stocked.body_of_not_native native
  case current => exact current
  case name => exact name
  case references =>
    intro v mem
    simpa [readsBack] using cells _ mem
  case spelling => exact spelling
  case literals =>
    intro v mem
    have reads := cells _ mem
    simp only [readsBack, Bool.and_eq_true, Bool.not_eq_true',
      decide_eq_true_eq] at reads
    obtain ⟨⟨notWord, text⟩, same⟩ := reads
    exact ⟨notWord, text, Cell.literal.inj (eq_of_sameCell same)⟩
  case closed =>
    obtain ⟨c, hc, same⟩ := (Option.any_eq_true _ _).1 last
    rw [hc, eq_of_sameCell same]
  case apart => exact apart

/-! ## The text of a definition -/

section Text

variable {m : Machine .none} {w : Handle}

/-- The tokens behind the `:` in the text of a definition. -/
def definitionTokens (m : Machine .none) (w : Handle) : List String :=
  w.name :: (m.decompile w ++
    ";" :: if m.dictionary.isImmediate w then ["immediate"] else [])

/-- The text of a definition is its tokens, with a space before each. -/
theorem toList_definitionText (stocked : Stocked m) {cells : Array Cell}
    (current : m.dictionary.lookup w.name = some w)
    (body : m.dictionary.body w = .thread cells) :
    (m.definitionText w).toList = ':' :: spaced (m.definitionTokens w) := by
  obtain ⟨_, word, present, name⟩ := stocked.names _ _ current
  have thread : word.isNative = false := by
    unfold Dictionary.body at body
    rw [present] at body
    replace body : word.body = .thread cells := body
    simp [Word.isNative, Word.cells?, body]
  have immediate : m.dictionary.isImmediate w = word.immediate := by
    unfold Dictionary.isImmediate
    rw [present]
    rfl
  have joined : (String.join ((m.decompile w).map fun token =>
      " " ++ token)).toList = spaced (m.decompile w) := by
    simp [String.toList_join, List.flatMap_map, spaced]
  unfold definitionText definitionTokens
  rw [present, immediate]
  dsimp only
  rw [thread, name]
  cases word.immediate <;> simp [joined, spaced]

/-- The words that the text is written with are tokens. -/
theorem isToken_spelling : ∀ b ∈ spellingWords, IsToken b.entry.name := by
  decide +kernel

/-- What stands between brackets are tokens if it is made of tokens. -/
theorem isToken_bracketed {texts : List String}
    (tokens : ∀ text ∈ texts, IsToken text) :
    ∀ text ∈ Decompile.bracketed texts, IsToken text := by
  intro text mem
  simp only [Decompile.bracketed, List.mem_cons, List.mem_append,
    List.not_mem_nil, or_false] at mem
  rcases mem with rfl | mem | rfl | rfl
  · exact isToken_spelling (.compile .interpretMode) (by decide)
  · exact tokens text mem
  · exact isToken_spelling (.compile .compileMode) (by decide)
  · exact isToken_spelling (.compile .comma) (by decide)

/-- The tokens of a cell are tokens. -/
theorem Legible.isToken_plain (legible : Legible m w) {c : Cell}
    (mem : c ∈ (m.dictionary.cells w).toList) :
    ∀ text ∈ Decompile.plain m.decompileContext c, IsToken text := by
  cases c with
  | word v =>
    obtain ⟨_, name⟩ := legible.references v mem
    have byName : ∀ text ∈ Decompile.byName v.name, IsToken text := by
      intro text mem
      simp only [Decompile.byName, List.mem_cons, List.not_mem_nil,
        or_false] at mem
      rcases mem with rfl | rfl | rfl | rfl
      · exact isToken_spelling (.console .word) (by decide)
      · exact name
      · exact isToken_spelling (.name .wordFromName) (by decide)
      · exact isToken_spelling (.stack .drop) (by decide)
    rw [Decompile.plain]
    split
    · exact isToken_bracketed byName
    · simpa using name
  | literal v =>
    obtain ⟨_, text, _⟩ := legible.literals v mem
    exact isToken_bracketed (by simpa using text)

/-- So are those of a cell behind `lit`. -/
theorem Legible.isToken_operand (legible : Legible m w) {c : Cell}
    (mem : c ∈ (m.dictionary.cells w).toList) :
    ∀ text ∈ Decompile.operand m.decompileContext c, IsToken text := by
  cases c with
  | word v =>
    intro text htext
    rcases List.mem_cons.1 htext with rfl | htext
    · exact isToken_spelling (.thread .lit) (by decide)
    · exact legible.isToken_plain mem text htext
  | literal v =>
    obtain ⟨_, text, _⟩ := legible.literals v mem
    simpa [Decompile.operand] using text

/-- All tokens of the text are tokens. -/
theorem Legible.isToken_tokens (legible : Legible m w) {row : List Cell}
    (within : ∀ c ∈ row, c ∈ (m.dictionary.cells w).toList) :
    ∀ text ∈ Decompile.tokens m.decompileContext row, IsToken text := by
  fun_induction Decompile.tokens m.decompileContext row with
  | case1 => exact nofun
  | case2 => exact nofun
  | case3 c => exact legible.isToken_plain (within c (by simp))
  | case4 c d rest _ ih =>
    intro text mem
    rcases List.mem_append.1 mem with mem | mem
    · exact legible.isToken_operand (within d (by simp)) text mem
    · exact ih (fun c hc => within c (by simp [hc])) text mem
  | case5 c d rest _ ih =>
    intro text mem
    rcases List.mem_append.1 mem with mem | mem
    · exact legible.isToken_plain (within c (by simp)) text mem
    · exact ih (fun c hc => within c (List.mem_cons_of_mem _ hc)) text mem

/-- **The text of a definition is made of the tokens of its cells**, between
`:` with the name and `;`. -/
theorem Legible.spells_definitionText (legible : Legible m w)
    (stocked : Stocked m) :
    Spells (m.definitionText w).toList (":" :: m.definitionTokens w) := by
  have tokens : ∀ text ∈ m.definitionTokens w, IsToken text := by
    intro text mem
    rcases List.mem_cons.1 mem with rfl | mem
    · exact legible.name
    rcases List.mem_append.1 mem with mem | mem
    · exact legible.isToken_tokens (fun _ hc => hc) text mem
    rcases List.mem_cons.1 mem with rfl | mem
    · exact isToken_spelling (.compile .endDefine) (by decide)
    · split at mem
      · rw [List.mem_singleton.1 mem]
        exact isToken_spelling (.compile .immediate) (by decide)
      · cases mem
  have colon := isToken_spelling (.compile .define) (by decide)
  have none : ∀ c ∈ ([] : List Char), isBlank c = true := nofun
  obtain ⟨cells, body⟩ := legible.composite
  rw [toList_definitionText stocked legible.current body]
  exact .cons none colon (isBlank_head_spaced _) (spells_spaced tokens)

end Text

end Machine

end Forth
