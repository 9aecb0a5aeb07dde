import Forth.Proofs.Drafts

/-!
# Compiling the text of a definition

The text of a definition gives, when it is run, a definition with the same
cells.  Only a reference of the word to itself is different: it leads to the
new word, because the name does so from the moment the text is begun.  The
new definition has the same text again, since references are written by name.

Main statement: `recompile_definitionText`.
-/

namespace Forth

namespace Decompile

/-- Two cells are written the same, each in its own context. -/
structure SameTokens (k k' : Context) (c c' : Cell) : Prop where
  lit : calls c' k'.lit = calls c k.lit
  exit : calls c' k'.exit = calls c k.exit
  plain : plain k' c' = plain k c
  operand : operand k' c' = operand k c

/-- References are written by name, and all that matters of the word is
whether it is immediate and whether it is `lit` or `exit`. -/
theorem sameTokens_word {k k' : Context} {v v' : Handle}
    (name : v'.name = v.name)
    (immediate : k'.isImmediate v' = k.isImmediate v)
    (lit : (k'.lit == some v') = (k.lit == some v))
    (exit : (k'.exit == some v') = (k.exit == some v)) :
    SameTokens k k' (.word v) (.word v') where
  lit := lit
  exit := exit
  plain := by
    rw [Decompile.plain, Decompile.plain, name, immediate]
  operand := by
    rw [Decompile.operand, Decompile.operand, name, immediate]

/-- Rows of such cells are written the same. -/
theorem tokens_map {k k' : Context} {f : Cell → Cell} {row : List Cell}
    (same : ∀ c ∈ row, SameTokens k k' c (f c)) :
    tokens k' (row.map f) = tokens k row := by
  fun_induction tokens k row with
  | case1 => rfl
  | case2 c last =>
    have hc := same c (by simp)
    rw [List.map_singleton, tokens, if_pos (hc.exit.trans last)]
  | case3 c other =>
    have hc := same c (by simp)
    rw [List.map_singleton, tokens, if_neg (hc.exit ▸ other), hc.plain]
  | case4 c d rest pair ih =>
    have hc := same c (by simp)
    have hd := same d (by simp)
    rw [List.map_cons, List.map_cons, tokens, if_pos (hc.lit.trans pair),
      hd.operand, ih fun c hc => same c (by simp [hc])]
  | case5 c d rest single ih =>
    have hc := same c (by simp)
    rw [List.map_cons, List.map_cons, tokens, if_neg (hc.lit ▸ single),
      hc.plain, ← List.map_cons,
      ih fun c hc => same c (List.mem_cons_of_mem _ hc)]

end Decompile

namespace Machine

/-- The machine `t` is `m` with a second definition of the word `w`, found
under `u`. -/
structure Recompiled (m : Machine .none) (w u : Handle)
    (t : Machine .none) : Prop where
  /-- The name leads to a word that was not there. -/
  current : t.dictionary.lookup w.name = some u
  fresh : m.dictionary.word? u = none
  /-- The word has the same cells and runs at the same time. -/
  body : t.dictionary.body u =
    .thread ((m.dictionary.cells w).map (Cell.redirect w u))
  immediate : t.dictionary.isImmediate u = m.dictionary.isImmediate w
  /-- Other names and all older words are what they were. -/
  names : ∀ name, name ≠ w.name →
    t.dictionary.lookup name = m.dictionary.lookup name
  older : ∀ v word, m.dictionary.word? v = some word →
    t.dictionary.word? v = some word
  /-- So is everything that a program can see. -/
  data : t.data.items = m.data.items
  memory : t.memory = m.memory
  output : t.output = m.output
  returns : t.returns = m.returns
  /-- The machine is at top level, ready for more. -/
  input : t.input = m.input
  cursor : t.cursor = none
  interpreting : t.interpreting = true
  finished : t.finished = false

section Recompiled

variable {m t : Machine .none} {w u : Handle}

/-- A finished draft is a second definition. -/
theorem Drafting.recompiled (copy : Copying m w u)
    (h : Drafting m u
      ⟨(m.dictionary.cells w).toList.map (Cell.redirect w u), m.data.items,
        true, m.dictionary.isImmediate w, []⟩ t) :
    Recompiled m w u { t with input := m.input } := by
  obtain ⟨location, word⟩ := h.word
  refine
    { current := ?_
      fresh := h.fresh
      body := ?_
      immediate := ?_
      names := ?_
      older := h.older
      data := h.items
      memory := h.memory
      output := h.output
      returns := h.returns
      input := rfl
      cursor := h.idle
      interpreting := h.mode
      finished := h.going }
  · exact (h.names w.name).trans (if_pos copy.named.symm)
  · show t.dictionary.body u = _
    unfold Dictionary.body
    rw [word]
    dsimp only [Word.ofCells]
    rw [← Array.toList_map, Array.toArray_toList]
    rfl
  · show t.dictionary.isImmediate u = _
    unfold Dictionary.isImmediate
    rw [word]
    rfl
  · intro name other
    exact (h.names name).trans (if_neg (copy.named ▸ other))

/-- A word of the machine is found under other handles than a new one. -/
theorem Recompiled.ne_builtin (h : Recompiled m w u t) (stocked : Stocked m)
    (b : Builtin) : handleOf b ≠ u := by
  intro same
  have body := stocked.body b
  unfold Dictionary.body at body
  rw [same, h.fresh] at body
  cases body

/-- A cell of the second definition is written as in the first. -/
theorem Recompiled.sameTokens (h : Recompiled m w u t)
    (copy : Copying m w u) (stocked : Stocked t) {c : Cell}
    (mem : c ∈ (m.dictionary.cells w).toList) :
    Decompile.SameTokens m.decompileContext t.decompileContext c
      (c.redirect w u) := by
  obtain ⟨lit, exit⟩ := copy.stocked.decompileContext
  obtain ⟨lit', exit'⟩ := stocked.decompileContext
  cases c with
  | literal v => exact ⟨rfl, rfl, rfl, rfl⟩
  | word v =>
    rw [Cell.redirect]
    by_cases self : v = w
    · -- Neither the old nor the new word is a built-in one.
      subst self
      rw [if_pos rfl]
      have neither : ∀ b, (some (handleOf b) == some u) =
          (some (handleOf b) == some v) := by
        intro b
        have new : (some (handleOf b) == some u) = false := by
          simpa using h.ne_builtin copy.stocked b
        have old : (some (handleOf b) == some v) = false := by
          simpa using copy.ne_builtin b
        rw [new, old]
      refine Decompile.sameTokens_word copy.named h.immediate ?_ ?_
      · rw [lit, lit']
        exact neither _
      · rw [exit, exit']
        exact neither _
    · rw [if_neg self]
      obtain ⟨found, _⟩ := copy.references v mem
      obtain ⟨_, word, present, _⟩ := copy.stocked.names _ _ found
      refine Decompile.sameTokens_word rfl ?_ ?_ ?_
      · show t.dictionary.isImmediate v = m.dictionary.isImmediate v
        unfold Dictionary.isImmediate
        rw [h.older v word present, present]
      · rw [lit, lit']
      · rw [exit, exit']

/-- The second definition has the text of the first. -/
theorem Recompiled.definitionText_eq (h : Recompiled m w u t)
    (copy : Copying m w u) (stocked : Stocked t) :
    t.definitionText u = m.definitionText w := by
  obtain ⟨cells, body⟩ := copy.composite
  have current : t.dictionary.lookup u.name = some u := by
    rw [copy.named]
    exact h.current
  have row : (t.dictionary.cells u).toList =
      (m.dictionary.cells w).toList.map (Cell.redirect w u) := by
    rw [Dictionary.cells_of_thread h.body, Array.toList_map]
  have tokens : t.decompile u = m.decompile w := by
    unfold decompile
    rw [row]
    exact Decompile.tokens_map fun _ => h.sameTokens copy stocked
  apply String.toList_inj.1
  rw [toList_definitionText copy.stocked copy.current body,
    toList_definitionText stocked current h.body]
  unfold definitionTokens
  rw [tokens, copy.named, h.immediate]

end Recompiled

/-- **Compiling the text of a definition gives the definition again.**  Let a
machine be at top level and a thread of it legible: it and the words that it
refers to have their names, its values are read as they are written, it ends
with an `exit` that is not an operand, and the words that the text is written
with have their names.  Then running its text ends well, and leaves the
machine as it was but for a second definition under the same name.  That one
has the same cells, with references of the word to itself turned to the new
word, it is immediate if the first one is, and it has the same text. -/
theorem recompile_definitionText {m : Machine .none} {w : Handle}
    (born : Born m) (idle : m.cursor = none) (mode : m.interpreting = true)
    (going : m.finished = false) (legible : Legible m w) (path : String) :
    ∃ n u t, processSource Primitives.pure n path (m.definitionText w) m =
        .ok () t ∧
      Recompiled m w u t ∧ t.definitionText u = m.definitionText w := by
  have copy : Copying m w ⟨m.dictionary.words.size, w.name⟩ :=
    { legible with stocked := born.stocked, named := rfl }
  have opening : Opening m (":" :: m.definitionTokens w)
      { m with input := .ofText path (m.definitionText w) } :=
    { stocked := born.stocked.of_same rfl rfl rfl
      items := rfl
      mode := mode
      whole := rfl
      unread := Source.spells_ofText
        (legible.spells_definitionText born.stocked) path
      memory := rfl
      output := rfl
      returns := rfl
      idle := idle
      going := going
      dictionary := rfl }
  obtain ⟨t₁, consumes, begun⟩ := opening.begins legible
  obtain ⟨t₂, consumed, drafted⟩ := passes_definition copy t₁ begun
  obtain ⟨rest, ended⟩ := drafted.ends
  obtain ⟨n, interpreted⟩ := exists_interpret_of_consumes
    Primitives.pure_cut .stop (.head consumes consumed)
    (ended ▸ ends_ok () _)
  have recompiled := drafted.recompiled copy
  refine ⟨n, _, _, ?_, recompiled, recompiled.definitionText_eq copy
    (drafted.stocked.of_same rfl rfl rfl)⟩
  unfold processSource reading
  rw [interpreted, ended]

/-- A machine with an immediate word `f` that refers to itself, to another
immediate word, to a word as an operand and to values in both places. -/
def havingLoud : Machine .none :=
  having (": loud ; immediate : f 7 [ 8 ] , lit drop " ++
    "lit [ word loud word_from_name drop ] , " ++
    "[ word loud word_from_name drop ] , f hello ; immediate")

/-- Its text is compiled to the same cells. -/
theorem f_recompiled :
    havingLoud.definitionText ⟨63, "f"⟩ =
      ": f 7 [ 8 ] , lit drop lit [ word loud word_from_name drop ] , " ++
      "[ word loud word_from_name drop ] , " ++
      "[ word f word_from_name drop ] , hello ; immediate" ∧
    Legible havingLoud ⟨63, "f"⟩ ∧
    ∃ n u t, processSource Primitives.pure n ""
        (havingLoud.definitionText ⟨63, "f"⟩) havingLoud = .ok () t ∧
      Recompiled havingLoud ⟨63, "f"⟩ u t ∧
      t.definitionText u = havingLoud.definitionText ⟨63, "f"⟩ := by
  have text : havingLoud.definitionText ⟨63, "f"⟩ =
      ": f 7 [ 8 ] , lit drop lit [ word loud word_from_name drop ] , " ++
      "[ word loud word_from_name drop ] , " ++
      "[ word f word_from_name drop ] , hello ; immediate" := by
    decide +kernel
  have looks : looksLegible havingLoud ⟨63, "f"⟩ = true := by decide +kernel
  have top : havingLoud.cursor = none ∧ havingLoud.interpreting = true ∧
      havingLoud.finished = false := by decide +kernel
  obtain ⟨idle, mode, going⟩ := top
  have legible := legible_of_looksLegible looks
  exact ⟨text, legible, recompile_definitionText (born_having _) idle mode
    going legible ""⟩

end Machine

end Forth
