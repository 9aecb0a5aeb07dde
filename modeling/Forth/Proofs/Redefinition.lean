import Forth.Proofs.Moments
import Forth.Proofs.Stocked

/-!
# Defining a name again changes no code

A new definition takes a name and leaves everything that was compiled before
as it is: cells refer to words and not to names, and a word changes only
while it is under construction.  So what a run can do to the words that were
there before it is very little.

* Every word has grown at most: cells have been appended to its thread, and
  it may have become immediate (`Word.Grown`).
* Only the word that was under construction when the run began has done even
  that; all others are what they were.
* A name leads to the word that it led to, unless the run has created a word
  of that name, and then it leads to the last of them (`LastCreated`).

`Kept` puts this together, `Kept.of_grow` is one elementary change, and
`redefinition_keeps_code` says it of both outer interpreters.
-/

namespace Forth

open Relation

variable {E : Embedding}

/-! ## Words that grow -/

/-- A word after some time under construction: no cell of its thread has
changed, and it has not ceased to be immediate. -/
structure Word.Grown (w w' : Word E) : Prop where
  name : w'.name = w.name
  immediate : w.immediate = true → w'.immediate = true
  native : (∀ cells, w.body ≠ .thread cells) → w'.body = w.body
  thread : ∀ cells, w.body = .thread cells →
    ∃ more, w'.body = .thread (cells ++ more)

namespace Word.Grown

theorem refl (w : Word E) : w.Grown w where
  name := rfl
  immediate := id
  native := fun _ => rfl
  thread := fun cells h => ⟨#[], by rw [h, Array.append_empty]⟩

theorem trans {w v u : Word E} (h : w.Grown v) (h' : v.Grown u) :
    w.Grown u where
  name := h'.name.trans h.name
  immediate := fun mark => h'.immediate (h.immediate mark)
  native := fun other => by
    have same := h.native other
    rw [← same]
    exact h'.native (fun cells thread => other cells (same ▸ thread))
  thread := fun cells thread => by
    obtain ⟨more, hv⟩ := h.thread cells thread
    obtain ⟨rest, hu⟩ := h'.thread _ hv
    exact ⟨more ++ rest, by rw [hu, Array.append_assoc]⟩

/-- Appending a cell. -/
theorem grow (c : Cell) (w : Word E) : w.Grown (w.grow c) where
  name := w.name_grow c
  immediate := fun mark => by
    unfold Word.grow
    split
    · exact mark
    · exact mark
  native := fun other => by
    unfold Word.grow
    split
    · next cells thread => exact absurd thread (other cells)
    · rfl
  thread := fun cells thread => by
    refine ⟨#[c], ?_⟩
    unfold Word.grow
    rw [thread]
    simp

/-- Marking as immediate. -/
theorem mark (w : Word E) : w.Grown w.mark :=
  { refl w with immediate := fun _ => rfl }

end Word.Grown

namespace Dictionary

/-- One definition has changed: the others have not, and the handles lead
where they led. -/
theorem word?_change_of_some {d : Dictionary E} {h v : Handle}
    {f : Word E → Word E} {w : Word E} (grown : ∀ w, Word.Grown w (f w))
    (present : d.word? v = some w) :
    ∃ w', (d.change h f).word? v = some w' ∧ w.Grown w' ∧
      (h.serial ≠ v.serial → w' = w) := by
  rw [word?_change]
  split
  · next same =>
    rw [present]
    exact ⟨f w, rfl, grown w, fun other => absurd same other⟩
  · exact ⟨w, present, .refl w, fun _ => rfl⟩

/-- The word behind a handle was there before the change. -/
theorem exists_word_of_change {d : Dictionary E} {h v : Handle}
    {f : Word E → Word E} {w' : Word E} (grown : ∀ w, Word.Grown w (f w))
    (present : (d.change h f).word? v = some w') :
    ∃ w, d.word? v = some w ∧ w'.name = w.name := by
  rw [word?_change] at present
  split at present
  · obtain ⟨w, hw, rfl⟩ := Option.map_eq_some_iff.1 present
    exact ⟨w, hw, (grown w).name⟩
  · exact ⟨w', present, rfl⟩

/-- Behind a handle that leads nowhere yet, later definitions are found. -/
theorem word?_eq_none_iff {d : Dictionary E} {h : Handle} :
    d.word? h = none ↔ d.words.size ≤ h.serial :=
  Array.getElem?_eq_none_iff

end Dictionary

namespace Machine

/-! ## What a run creates -/

/-- A word has been created on the way from one machine to another. -/
structure Created (m t : Machine E) (h : Handle) : Prop where
  fresh : m.dictionary.word? h = none
  present : ∃ w, t.dictionary.word? h = some w ∧ w.name = h.name

/-- The last word created under a name. -/
structure LastCreated (m t : Machine E) (name : String) (h : Handle) :
    Prop extends Created m t h where
  named : h.name = name
  last : ∀ v, Created m t v → v.name = name → v.serial ≤ h.serial

/-- What the way from one machine to another leaves of the words that were
there. -/
structure Kept (m t : Machine E) : Prop where
  /-- All words but the one under construction are what they were. -/
  others : ∀ h w, m.dictionary.word? h = some w →
    (∀ u, m.underConstruction = some u → u.serial ≠ h.serial) →
    t.dictionary.word? h = some w
  /-- That one has grown at most. -/
  under : ∀ u w, m.underConstruction = some u →
    m.dictionary.word? u = some w →
    ∃ w', t.dictionary.word? u = some w' ∧ w.Grown w'
  builtins : t.builtins = m.builtins
  /-- No name is lost. -/
  names : ∀ name, m.dictionary.lookup name ≠ none →
    t.dictionary.lookup name ≠ none
  /-- A name under which nothing was created leads where it led. -/
  unchanged : ∀ name, (∀ h, Created m t h → h.name ≠ name) →
    t.dictionary.lookup name = m.dictionary.lookup name
  /-- Any other leads to the last word created under it. -/
  renewed : ∀ h, Created m t h →
    ∃ v, LastCreated m t h.name v ∧ t.dictionary.lookup h.name = some v

section Created

variable {m t t' : Machine E} {name : String} {v : Handle}

/-- Where the same words have been created, the last of a name is the same. -/
theorem LastCreated.of_iff (h : LastCreated m t name v)
    (same : ∀ x, Created m t' x ↔ Created m t x) :
    LastCreated m t' name v where
  toCreated := (same v).2 h.toCreated
  named := h.named
  last := fun x created => h.last x ((same x).1 created)

/-- A change to a definition creates none. -/
theorem created_of_change {u : Handle} {f : Word E → Word E}
    (grown : ∀ w, Word.Grown w (f w))
    (dictionary : t'.dictionary = t.dictionary.change u f) :
    Created m t' v ↔ Created m t v := by
  constructor
  · intro c
    obtain ⟨w', present, named⟩ := c.present
    rw [dictionary] at present
    obtain ⟨w, hw, same⟩ := Dictionary.exists_word_of_change grown present
    exact ⟨c.fresh, w, hw, same.symm.trans named⟩
  · intro c
    obtain ⟨w, present, named⟩ := c.present
    obtain ⟨w', hw', g, _⟩ :=
      Dictionary.word?_change_of_some (h := u) grown present
    exact ⟨c.fresh, w', dictionary ▸ hw', g.name.trans named⟩

/-- A definition creates one word more. -/
theorem created_of_define {w : Word E}
    (dictionary : t'.dictionary = (t.dictionary.define w).2)
    (size : m.dictionary.words.size ≤ t.dictionary.words.size) :
    Created m t' v ↔
      Created m t v ∨ v = ⟨t.dictionary.words.size, w.name⟩ := by
  constructor
  · intro c
    obtain ⟨x, present, named⟩ := c.present
    rw [dictionary] at present
    change (t.dictionary.words.push w)[v.serial]? = some x at present
    rw [Array.getElem?_push] at present
    split at present
    · next here =>
      cases present
      obtain ⟨serial, text⟩ := v
      cases here
      cases named
      exact .inr rfl
    · exact .inl ⟨c.fresh, x, present, named⟩
  · rintro (c | rfl)
    · obtain ⟨x, present, named⟩ := c.present
      exact ⟨c.fresh, x,
        dictionary ▸ Dictionary.word?_define_of_some present w, named⟩
    · exact ⟨Dictionary.word?_eq_none_iff.2 size, w,
        dictionary ▸ t.dictionary.word?_define_self w, rfl⟩

/-- The one created now is the last of its name. -/
theorem lastCreated_of_define {w : Word E}
    (dictionary : t'.dictionary = (t.dictionary.define w).2)
    (size : m.dictionary.words.size ≤ t.dictionary.words.size) :
    LastCreated m t' w.name ⟨t.dictionary.words.size, w.name⟩ where
  toCreated := (created_of_define dictionary size).2 (.inr rfl)
  named := rfl
  last := fun x created _ => by
    obtain ⟨y, present, _⟩ := created.present
    rw [dictionary] at present
    have within : x.serial < (t.dictionary.words.push w).size :=
      (Array.getElem?_eq_some_iff.1 present).1
    rw [Array.size_push] at within
    exact Nat.le_of_lt_succ within

/-- The last of another name stays the last. -/
theorem LastCreated.of_define (h : LastCreated m t name v) {w : Word E}
    (dictionary : t'.dictionary = (t.dictionary.define w).2)
    (size : m.dictionary.words.size ≤ t.dictionary.words.size)
    (other : name ≠ w.name) : LastCreated m t' name v where
  toCreated := (created_of_define dictionary size).2 (.inl h.toCreated)
  named := h.named
  last := fun x created named => by
    rcases (created_of_define dictionary size).1 created with old | rfl
    · exact h.last x old named
    · exact absurd named.symm other

end Created

namespace Kept

/-- What is known on the way besides: the word under construction is the one
that was, or has been created since. -/
structure Since (m t : Machine E) : Prop extends Kept m t where
  size : m.dictionary.words.size ≤ t.dictionary.words.size
  current : t.underConstruction = m.underConstruction ∨
    ∃ u, t.underConstruction = some u ∧
      m.dictionary.words.size ≤ u.serial

theorem Since.refl (m : Machine E) : Since m m where
  others := fun _ _ present _ => present
  under := fun _ w _ present => ⟨w, present, .refl w⟩
  builtins := rfl
  names := fun _ h => h
  unchanged := fun _ _ => rfl
  renewed := fun h created => by
    obtain ⟨w, present, _⟩ := created.present
    rw [created.fresh] at present
    cases present
  size := Nat.le_refl _
  current := .inl rfl

variable {m t t' : Machine E}

/-- All that matters is the words. -/
theorem Since.of_same (h : Since m t)
    (dictionary : t'.dictionary = t.dictionary)
    (builtins : t'.builtins = t.builtins)
    (under : t'.underConstruction = t.underConstruction) : Since m t' := by
  have created (v : Handle) : Created m t' v ↔ Created m t v :=
    ⟨fun c => ⟨c.fresh, dictionary ▸ c.present⟩,
      fun c => ⟨c.fresh, dictionary ▸ c.present⟩⟩
  constructor
  case size => rw [dictionary]; exact h.size
  case current => rw [under]; exact h.current
  constructor
  case others => rw [dictionary]; exact h.others
  case under => rw [dictionary]; exact h.under
  case builtins => exact builtins.trans h.builtins
  case names => rw [dictionary]; exact h.names
  case unchanged =>
    intro name none
    rw [dictionary]
    exact h.unchanged name fun v c => none v ((created v).2 c)
  case renewed =>
    intro v c
    rw [dictionary]
    obtain ⟨u, last, found⟩ := h.renewed v ((created v).1 c)
    exact ⟨u, last.of_iff created, found⟩

/-- The word under construction changes. -/
theorem Since.of_change (h : Since m t) {u : Handle}
    {f : Word E → Word E} (grown : ∀ w, Word.Grown w (f w))
    (current : t.underConstruction = some u) :
    Since m { t with dictionary := t.dictionary.change u f } := by
  have created (v : Handle) :
      Created m { t with dictionary := t.dictionary.change u f } v ↔
        Created m t v := created_of_change grown rfl
  -- A word that was there before is another one, unless it was the one
  -- under construction.
  have apart {v : Handle} {w : Word E} (old : m.dictionary.word? v = some w)
      (other : ∀ x, m.underConstruction = some x → x.serial ≠ v.serial) :
      u.serial ≠ v.serial := by
    rcases h.current with same | ⟨x, later, high⟩
    · exact other u (same ▸ current)
    · have low := (Array.getElem?_eq_some_iff.1 old).1
      cases current.symm.trans later
      intro same
      omega
  constructor
  case size =>
    show _ ≤ (t.dictionary.words.modify u.serial f).size
    rw [Array.size_modify]
    exact h.size
  case current => exact h.current
  constructor
  case others =>
    intro v w old other
    obtain ⟨w', present, _, same⟩ := Dictionary.word?_change_of_some (h := u)
      grown (h.others v w old other)
    rw [same (apart old other)] at present
    exact present
  case under =>
    intro v w begun old
    obtain ⟨w₁, present₁, grown₁⟩ := h.under v w begun old
    obtain ⟨w₂, present₂, grown₂, _⟩ :=
      Dictionary.word?_change_of_some (h := u) grown present₁
    exact ⟨w₂, present₂, grown₁.trans grown₂⟩
  case builtins => exact h.builtins
  case names => exact h.names
  case unchanged =>
    exact fun name none => h.unchanged name fun v c => none v ((created v).2 c)
  case renewed =>
    intro v c
    obtain ⟨x, last, found⟩ := h.renewed v ((created v).1 c)
    exact ⟨x, last.of_iff created, found⟩

/-- A word is created and put under construction. -/
theorem Since.of_define (h : Since m t) {w : Word E}
    (dictionary : t'.dictionary = (t.dictionary.define w).2)
    (builtins : t'.builtins = t.builtins)
    (under : t'.underConstruction = some (t.dictionary.define w).1) :
    Since m t' := by
  have size := h.size
  have lookup (text : String) : t'.dictionary.lookup text =
      if text = w.name then some ⟨t.dictionary.words.size, w.name⟩
      else t.dictionary.lookup text := by
    rw [dictionary]
    exact t.dictionary.lookup_define w text
  have still {v : Handle} {x : Word E}
      (present : t.dictionary.word? v = some x) :
      t'.dictionary.word? v = some x := by
    rw [dictionary]
    exact Dictionary.word?_define_of_some present w
  have created {v : Handle} := created_of_define (v := v) dictionary size
  have new := lastCreated_of_define dictionary size
  constructor
  case size =>
    rw [dictionary]
    show _ ≤ (t.dictionary.words.push w).size
    rw [Array.size_push]
    omega
  case current => exact .inr ⟨_, under, size⟩
  constructor
  case others => exact fun v x old other => still (h.others v x old other)
  case under =>
    intro v x begun old
    obtain ⟨x', present, grown⟩ := h.under v x begun old
    exact ⟨x', still present, grown⟩
  case builtins => exact builtins.trans h.builtins
  case names =>
    intro text known
    rw [lookup]
    split
    · exact nofun
    · exact h.names text known
  case unchanged =>
    intro text none
    have other : text ≠ w.name := fun same => none _ new.toCreated same.symm
    rw [lookup, if_neg other]
    exact h.unchanged text fun v c => none v (created.2 (.inl c))
  case renewed =>
    intro v c
    by_cases same : v.name = w.name
    · rw [lookup, if_pos same, same]
      exact ⟨_, new, rfl⟩
    · rcases created.1 c with old | rfl
      · obtain ⟨x, last, found⟩ := h.renewed v old
        rw [lookup, if_neg same]
        exact ⟨x, last.of_define dictionary size same, found⟩
      · exact absurd rfl same

/-- **One elementary change.** -/
theorem Since.of_grow (h : Since m t) (grow : Grow t t') : Since m t' := by
  cases grow with
  | control => exact h.of_same rfl rfl rfl
  | touch touch =>
    cases touch with
    | aside => exact h.of_same rfl rfl rfl
    | append under grown =>
      rw [Dictionary.eq_change_of_append grown]
      exact h.of_change (.grow _) under
    | mark under => exact h.of_change .mark under
    | create => exact h.of_define rfl rfl rfl

/-- Any number of them. -/
theorem of_grows (grows : Grows m t) : Since m t := by
  induction grows with
  | refl => exact .refl m
  | tail _ grow ih => exact ih.of_grow grow

end Kept

/-! ## The word defined last -/

/-- The word that was defined last is the current one of its name. -/
def LastIsCurrent (m : Machine E) : Prop :=
  ∀ h, m.dictionary.last = some h → m.dictionary.lookup h.name = some h

theorem LastIsCurrent.of_grow {m t : Machine E} (h : LastIsCurrent m)
    (grow : Grow m t) : LastIsCurrent t := by
  cases grow with
  | control => exact h
  | touch touch =>
    cases touch with
    | aside => exact h
    | append under grown =>
      rw [Dictionary.eq_change_of_append grown]
      exact h
    | mark under => exact h
    | create name location =>
      rintro v ⟨⟩
      exact m.dictionary.lookup_define_self _

theorem Born.lastIsCurrent {m : Machine .none} (born : Born m) :
    LastIsCurrent m := by
  obtain ⟨output, watcher, grows⟩ := born
  induction grows with
  | refl =>
    have same := sameWords_new (E := .none) .unlimited output none watcher ()
    have atBirth : origin.dictionary.last = some initHandle ∧
        origin.dictionary.lookup "init" = some initHandle := by
      decide +kernel
    intro h last
    rw [same.dictionary] at last ⊢
    cases atBirth.1.symm.trans last
    exact atBirth.2
  | tail _ grow ih => exact ih.of_grow grow

/-! ## Runs -/

/-- An outer interpreter only lets the machine grow. -/
theorem Outer.run_grows (outer : Outer) (policy : OnError) (n : Nat) :
    Growing (outer.run Primitives.pure policy n) := by
  cases outer with
  | rule => exact interpret_grows policy n
  | thread => exact boot_grows policy n

/-- **Defining a name again changes no code.**  Let a machine that comes from
a new one run some input, through either outer interpreter, whether that ends
well, fails or goes on.  Then every word that was there is what it was, but
for the word that was under construction, to which cells may have been
appended and which may have become immediate; the built-in words are the same;
no name is lost, and a name leads elsewhere only if a word was created under
it, and then to the last of these; and the word that was defined last is the
current one of its name. -/
theorem redefinition_keeps_code {m : Machine .none} (born : Born m)
    (outer : Outer) (policy : OnError) (n : Nat) (input : Source) :
    Kept m (leftBy (outer.run Primitives.pure policy n
      { m with input := input })) ∧
    LastIsCurrent (leftBy (outer.run Primitives.pure policy n
      { m with input := input })) := by
  have given : Grow m { m with input := input } :=
    .touch (.aside m _ _ _ _ _ _ _)
  have grows := ReflTransGen.head given
    (outer.run_grows policy n { m with input := input })
  obtain ⟨output, watcher, before⟩ := born
  exact ⟨(Kept.of_grows grows).toKept,
    Born.lastIsCurrent ⟨output, watcher, before.trans grows⟩⟩

/-- A machine with a word `g` that calls a word `f`. -/
def havingCaller : Machine .none := having ": f 1 ; : g f ;"

/-- It is told to define `f` again, with two values, and to run `g`. -/
def definedAgain : Machine .none :=
  leftBy (Outer.rule.run Primitives.pure .stop 200
    { havingCaller with input := .ofText "" ": f 1 2 ; g" })

/-- The name leads to the new word, and `g` still calls the old one. -/
theorem caller_keeps_callee :
    havingCaller.dictionary.lookup "f" = some ⟨62, "f"⟩ ∧
    definedAgain.dictionary.lookup "f" = some ⟨64, "f"⟩ ∧
    definedAgain.data.depth = 1 ∧
    Kept havingCaller definedAgain ∧ LastIsCurrent definedAgain := by
  have facts : havingCaller.dictionary.lookup "f" = some ⟨62, "f"⟩ ∧
      definedAgain.dictionary.lookup "f" = some ⟨64, "f"⟩ ∧
      definedAgain.data.depth = 1 := by decide +kernel
  obtain ⟨before, after, depth⟩ := facts
  exact ⟨before, after, depth,
    redefinition_keeps_code (born_having _) .rule .stop 200 _⟩

end Machine

end Forth
