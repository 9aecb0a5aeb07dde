import Forth.Proofs.Growth
import Forth.Proofs.Turns

/-!
# The stock of words

Every machine is born with the same words: the built-in ones, in the order of
`Builtin.all`, and the two threads `interpret` and `init`.  Nothing that a
machine can do changes them.  Cells are only appended to the word under
construction, and that one was created later; a new definition of a name
takes the name and leaves the old word alone.

`Born` says that a machine comes from a new one, `Stocked` what is then true
of its dictionary, and `Born.stocked` that it is.  Main consequences:
`Stocked.body` and `Stocked.builtin`, that the built-in words are what they
were, and `Stocked.interpretCells`, that the thread `interpret` has the cells
which it was born with.
-/

namespace Forth

open Relation

variable {E : Embedding}

/-! ## Dictionaries that grow -/

/-- A thread with one more cell. -/
def Word.grow (c : Cell) (w : Word E) : Word E :=
  match w.body with
  | .thread cells => { w with body := .thread (cells.push c) }
  | _ => w

/-- A word that also runs while compiling. -/
def Word.mark (w : Word E) : Word E := { w with immediate := true }

@[simp] theorem Word.name_grow (c : Cell) (w : Word E) :
    (w.grow c).name = w.name := by
  unfold Word.grow
  split
  · rfl
  · rfl

namespace Dictionary

/-- A dictionary with one definition changed. -/
def change (d : Dictionary E) (h : Handle) (f : Word E → Word E) :
    Dictionary E :=
  { d with words := d.words.modify h.serial f }

theorem word?_change (d : Dictionary E) (h v : Handle)
    (f : Word E → Word E) :
    (d.change h f).word? v =
      if h.serial = v.serial then (d.word? v).map f else d.word? v :=
  Array.getElem?_modify

/-- The cells of a thread are what it does. -/
theorem cells_of_thread {d : Dictionary E} {h : Handle} {cells : Array Cell}
    (body : d.body h = .thread cells) : d.cells h = cells := by
  unfold Dictionary.body at body
  unfold Dictionary.cells
  cases hw : d.word? h with
  | none =>
    rw [hw] at body
    cases body
    rfl
  | some w =>
    rw [hw] at body
    replace body : w.body = .thread cells := body
    simp [Word.cells?, body]

/-- A cell can be appended to a thread, and then the thread has grown. -/
theorem append_of_thread {d : Dictionary E} {h : Handle}
    {cells : Array Cell} (body : d.body h = .thread cells) (c : Cell) :
    d.append h c = .ok (d.change h (Word.grow c)) := by
  unfold append
  rw [body]
  rfl

/-- Where a cell was appended, a thread has grown. -/
theorem eq_change_of_append {d d' : Dictionary E} {h : Handle} {c : Cell}
    (grown : d.append h c = .ok d') : d' = d.change h (Word.grow c) := by
  cases body : d.body h with
  | thread cells =>
    rw [append_of_thread body] at grown
    cases grown
    rfl
  | builtin b =>
    unfold append at grown
    rw [body] at grown
    cases grown
  | host code =>
    unfold append at grown
    rw [body] at grown
    cases grown

/-- A new definition leaves the older ones where they are. -/
theorem word?_define_of_some {d : Dictionary E} {h : Handle} {v : Word E}
    (present : d.word? h = some v) (w : Word E) :
    (d.define w).2.word? h = some v := by
  obtain ⟨within, _⟩ := Array.getElem?_eq_some_iff.1 present
  rw [word?_define_of_lt d w within]
  exact present

/-- A new definition is found through its handle. -/
theorem word?_define_self (d : Dictionary E) (w : Word E) :
    (d.define w).2.word? (d.define w).1 = some w :=
  Array.getElem?_push_size

theorem lookup_define (d : Dictionary E) (w : Word E) (name : String) :
    (d.define w).2.lookup name =
      if name = w.name then some (d.define w).1 else d.lookup name := by
  by_cases same : name = w.name
  · rw [if_pos same, same]
    exact d.lookup_define_self w
  · rw [if_neg same]
    exact d.lookup_define_of_ne w same

end Dictionary

namespace Machine

/-! ## Machines at birth -/

/-- A machine at the start of its life, with nobody watching. -/
def origin : Machine .none := new .unlimited none ()

/-- A machine that comes from a new one by what machines do. -/
def Born (m : Machine .none) : Prop :=
  ∃ output watcher, Grows (new output watcher ()) m

/-- A machine that has run a text is one. -/
theorem born_having (text : String) : Born (having text) :=
  ⟨.unlimited, none, processSource_grows 200 "" text _⟩

/-- The number of words at birth. -/
def stockSize : Nat := 62

/-- What is known of the words of a machine: those it was born with are what
they were, cells go into a thread that came later, and names lead to words of
that name. -/
structure Stocked (m : Machine .none) : Prop where
  stock : ∀ h : Handle, h.serial < stockSize →
    m.dictionary.word? h = origin.dictionary.word? h
  builtins : m.builtins = origin.builtins
  under : ∀ h, m.underConstruction = some h → stockSize ≤ h.serial ∧
    ∃ w cells, m.dictionary.word? h = some w ∧ w.name = h.name ∧
      w.body = .thread cells
  names : ∀ name h, m.dictionary.lookup name = some h → h.name = name ∧
    ∃ w, m.dictionary.word? h = some w ∧ w.name = name

namespace Stocked

variable {m t : Machine .none}

/-- All that matters is the words. -/
theorem of_same (h : Stocked m) (dictionary : t.dictionary = m.dictionary)
    (builtins : t.builtins = m.builtins)
    (under : t.underConstruction = m.underConstruction) : Stocked t where
  stock := by rw [dictionary]; exact h.stock
  builtins := builtins.trans h.builtins
  under := by rw [dictionary, under]; exact h.under
  names := by rw [dictionary]; exact h.names

/-- The word under construction changes, and stays a thread of its name. -/
theorem of_change (h : Stocked m) {v : Handle} {f : Word .none → Word .none}
    (under : m.underConstruction = some v)
    (name : ∀ w, (f w).name = w.name)
    (body : ∀ w cells, w.body = .thread cells →
      ∃ cells', (f w).body = .thread cells') :
    Stocked { m with dictionary := m.dictionary.change v f } := by
  obtain ⟨later, _⟩ := h.under v under
  constructor
  case stock =>
    intro u early
    have other : v.serial ≠ u.serial := by omega
    show (m.dictionary.change v f).word? u = _
    rw [Dictionary.word?_change, if_neg other]
    exact h.stock u early
  case builtins => exact h.builtins
  case under =>
    intro u hu
    have same : v = u := Option.some.inj (under.symm.trans hu)
    subst same
    obtain ⟨_, w, cells, present, hname, hbody⟩ := h.under v under
    obtain ⟨cells', hbody'⟩ := body w cells hbody
    refine ⟨later, f w, cells', ?_, (name w).trans hname, hbody'⟩
    show (m.dictionary.change v f).word? v = _
    rw [Dictionary.word?_change, if_pos rfl, present]
    rfl
  case names =>
    intro text u found
    obtain ⟨hname, w, present, hw⟩ := h.names text u found
    refine ⟨hname, ?_⟩
    show ∃ w, (m.dictionary.change v f).word? u = some w ∧ _
    rw [Dictionary.word?_change, present]
    split
    · exact ⟨f w, rfl, (name w).trans hw⟩
    · exact ⟨w, rfl, hw⟩

/-- The words of the stock are there. -/
theorem stockSize_le (h : Stocked m) :
    stockSize ≤ m.dictionary.words.size := by
  have last := h.stock ⟨61, "init"⟩ (by decide)
  have present : (origin.dictionary.word? ⟨61, "init"⟩).isSome = true := by
    decide +kernel
  rw [← last] at present
  obtain ⟨w, hw⟩ := Option.isSome_iff_exists.1 present
  obtain ⟨within, _⟩ := Array.getElem?_eq_some_iff.1 hw
  exact within

/-- A word is created and put under construction. -/
theorem of_create (h : Stocked m) (name : String) (location : Location) :
    Stocked { m with
      dictionary := (m.dictionary.define (.ofCells name location #[])).2
      underConstruction :=
        some (m.dictionary.define (.ofCells name location #[])).1 } := by
  have size := h.stockSize_le
  constructor
  case stock =>
    intro u early
    rw [← h.stock u early]
    exact m.dictionary.word?_define_of_lt _ (by omega)
  case builtins => exact h.builtins
  case under =>
    rintro u ⟨⟩
    exact ⟨size, _, #[], m.dictionary.word?_define_self _, rfl, rfl⟩
  case names =>
    intro text u found
    replace found : (m.dictionary.define (.ofCells name location #[])).2.lookup
      text = some u := found
    rw [Dictionary.lookup_define] at found
    split at found
    · next same =>
      cases found
      exact ⟨same.symm, _, m.dictionary.word?_define_self _, same.symm⟩
    · obtain ⟨hname, w, present, hw⟩ := h.names text u found
      exact ⟨hname, w, Dictionary.word?_define_of_some present _, hw⟩

/-- **Nothing a machine does touches the stock.** -/
theorem of_grow (h : Stocked m) (grow : Grow m t) : Stocked t := by
  cases grow with
  | control => exact h.of_same rfl rfl rfl
  | touch touch =>
    cases touch with
    | aside => exact h.of_same rfl rfl rfl
    | append under grown =>
      rw [Dictionary.eq_change_of_append grown]
      refine h.of_change under (Word.name_grow _) ?_
      intro w cells body
      unfold Word.grow
      rw [body]
      exact ⟨_, rfl⟩
    | mark under =>
      refine h.of_change under (fun _ => rfl) ?_
      exact fun w cells body => ⟨cells, body⟩
    | create name location => exact h.of_create name location

theorem of_grows (h : Stocked m) (grows : Grows m t) : Stocked t := by
  induction grows with
  | refl => exact h
  | tail _ grow ih => exact ih.of_grow grow

end Stocked

/-! ## Birth -/

/-- Machines with the same words, in the same place. -/
structure SameWords (m t : Machine E) : Prop where
  dictionary : t.dictionary = m.dictionary
  builtins : t.builtins = m.builtins
  under : t.underConstruction = m.underConstruction
  location : t.location = m.location

namespace SameWords

variable {m t : Machine E}

theorem addNative (h : SameWords m t) (entry : Entry) (body : Body E) :
    SameWords (m.addNative entry body).2 (t.addNative entry body).2 := by
  unfold Machine.addNative define
  dsimp only
  rw [h.dictionary, h.builtins]
  exact ⟨rfl, rfl, h.under, h.location⟩

theorem addBuiltins (h : SameWords m t) :
    SameWords m.addBuiltins t.addBuiltins := by
  unfold Machine.addBuiltins
  generalize Builtin.all = words
  induction words generalizing m t with
  | nil => exact h
  | cons b words ih => exact ih (h.addNative b.entry (.builtin b))

theorem addThread (h : SameWords m t) (name text : String) :
    SameWords (m.addThread name text) (t.addThread name text) := by
  unfold Machine.addThread assemble definitionSite define
  dsimp only
  rw [h.dictionary, h.builtins, h.location]
  exact ⟨rfl, rfl, h.under, rfl⟩

theorem record (h : SameWords m t) (e e' : Event) :
    SameWords (m.record e) (t.record e') := by
  rw [record_eq m, record_eq t]
  exact ⟨h.dictionary, h.builtins, h.under, h.location⟩

end SameWords

/-- All new machines have the same words. -/
theorem sameWords_new (output output' : Sink) (watcher watcher' : Option Level)
    (host : E.State) :
    SameWords (new output watcher host) (new output' watcher' host) := by
  have bare : SameWords (bare output watcher host)
      (Machine.bare output' watcher' host) := ⟨rfl, rfl, rfl, rfl⟩
  have threads := (bare.addBuiltins.addThread "interpret"
    interpretText).addThread "init" initText
  exact threads.record _ _

/-- Whether every name leads to a word of that name. -/
def namesAgree (d : Dictionary E) : Bool :=
  d.names.entries.all fun (name, h) =>
    h.name == name && (d.word? h).any fun w => w.name == name

theorem namesAgree_spec {d : Dictionary E} (agree : namesAgree d = true)
    {name : String} {h : Handle} (found : d.lookup name = some h) :
    h.name = name ∧ ∃ w, d.word? h = some w ∧ w.name = name := by
  unfold Dictionary.lookup Table.find? at found
  obtain ⟨⟨key, v⟩, hentry, rfl⟩ := Option.map_eq_some_iff.1 found
  have mem := List.mem_of_find?_eq_some hentry
  have same := List.find?_some hentry
  have entry := List.all_eq_true.1 agree _ mem
  simp only [beq_iff_eq, Bool.and_eq_true, Option.any_eq_true] at entry same
  subst same
  obtain ⟨hname, w, present, hw⟩ := entry
  exact ⟨hname, w, present, hw⟩

/-- A new machine has its stock. -/
theorem stocked_new (output : Sink) (watcher : Option Level) :
    Stocked (new output watcher ()) := by
  have same := sameWords_new (E := .none) .unlimited output none watcher ()
  have atBirth : namesAgree origin.dictionary = true ∧
      origin.underConstruction = none := by decide +kernel
  have stocked : Stocked origin := by
    constructor
    case stock => exact fun _ _ => rfl
    case builtins => rfl
    case under =>
      intro h under
      rw [atBirth.2] at under
      cases under
    case names => exact fun name h found => namesAgree_spec atBirth.1 found
  exact stocked.of_same same.dictionary same.builtins same.under

/-- **A machine keeps its stock for life.** -/
theorem Born.stocked {m : Machine .none} (born : Born m) : Stocked m := by
  obtain ⟨output, watcher, grows⟩ := born
  exact (stocked_new output watcher).of_grows grows

/-! ## The words of the stock -/

/-- The handle under which a built-in word is born. -/
def handleOf (b : Builtin) : Handle := ⟨Builtin.all.idxOf b, b.entry.name⟩

/-- The outer interpreter as a thread. -/
def interpretHandle : Handle := ⟨60, "interpret"⟩

/-- The thread that a machine is booted with. -/
def initHandle : Handle := ⟨61, "init"⟩

/-- The cells of the outer interpreter. -/
def interpretCells : List Cell :=
  [.word (handleOf (.compile .interpretMode)),
    .word (handleOf (.console .word)),
    .word (handleOf (.stack .dup)),
    .word (handleOf (.thread .zeroBranch)), .literal (.int 26),
    .word (handleOf (.name .wordFromName)),
    .word (handleOf (.thread .zeroBranch)), .literal (.int 12),
    .word (handleOf (.stack .dup)),
    .word (handleOf (.name .isImmediate)),
    .word (handleOf (.name .forthInterpret)),
    .word (handleOf (.math .or)),
    .word (handleOf (.thread .zeroBranch)), .literal (.int 3),
    .word (handleOf (.thread .exec)),
    .word (handleOf (.thread .branch)), .literal (.int (-16)),
    .word (handleOf (.compile .comma)),
    .word (handleOf (.thread .branch)), .literal (.int (-19)),
    .word (handleOf (.name .forthInterpret)),
    .word (handleOf (.thread .zeroBranch)), .literal (.int 2),
    .word (handleOf (.thread .branch)), .literal (.int (-24)),
    .word (handleOf (.thread .tick)), .word (handleOf (.thread .lit)),
    .word (handleOf (.compile .comma)),
    .word (handleOf (.compile .comma)),
    .word (handleOf (.thread .branch)), .literal (.int (-30)),
    .word (handleOf (.stack .drop)),
    .word (handleOf (.thread .exit))]

/-- The cells of the thread that runs it. -/
def initCells : List Cell :=
  [.word interpretHandle, .word (handleOf (.thread .exit))]

/-- Whether two cells are the same word, integer or string. -/
def sameCell : Cell → Cell → Bool
  | .word v, .word w => v == w
  | .literal (.int a), .literal (.int b) => a == b
  | .literal (.string s), .literal (.string t) => s == t
  | _, _ => false

theorem eq_of_sameCell {a b : Cell} (h : sameCell a b = true) : a = b := by
  unfold sameCell at h
  split at h
  · simpa using h
  · simpa using h
  · simpa using h
  · cases h

/-- Whether two rows of cells are the same words, integers and strings. -/
def sameCells : List Cell → List Cell → Bool
  | [], [] => true
  | a :: as, b :: bs => sameCell a b && sameCells as bs
  | _, _ => false

theorem eq_of_sameCells {as bs : List Cell} (h : sameCells as bs = true) :
    as = bs := by
  induction as generalizing bs with
  | nil =>
    cases bs with
    | nil => rfl
    | cons => cases h
  | cons a as ih =>
    cases bs with
    | nil => cases h
    | cons b bs =>
      obtain ⟨first, rest⟩ : sameCell a b = true ∧ sameCells as bs = true := by
        simpa [sameCells] using h
      rw [eq_of_sameCell first, ih rest]

/-- Whether a word is a given built-in one. -/
instance (body : Body .none) (b : Builtin) :
    Decidable (body = .builtin b) :=
  match body with
  | .builtin c => decidable_of_iff (c = b) (by simp)
  | .host code => code.elim
  | .thread _ => isFalse nofun

/-- The built-in words at birth. -/
theorem origin_builtins : ∀ b ∈ Builtin.all,
    (handleOf b).serial < stockSize ∧
    origin.dictionary.body (handleOf b) = .builtin b ∧
    origin.dictionary.isImmediate (handleOf b) = b.entry.immediate ∧
    origin.builtins.find? b.entry.name = some (handleOf b) := by
  decide +kernel

/-- The two threads at birth. -/
theorem origin_threads :
    sameCells (origin.dictionary.cells interpretHandle).toList
      interpretCells = true ∧
    sameCells (origin.dictionary.cells initHandle).toList
      initCells = true ∧
    origin.builtins.find? "init" = some initHandle ∧
    (origin.dictionary.word? interpretHandle).any (!·.isNative) = true ∧
    (origin.dictionary.word? initHandle).any (!·.isNative) = true := by
  decide +kernel

namespace Stocked

variable {m : Machine .none}

/-- A word of the stock does what it did at birth. -/
theorem body_eq (h : Stocked m) {v : Handle} (early : v.serial < stockSize) :
    m.dictionary.body v = origin.dictionary.body v := by
  unfold Dictionary.body
  rw [h.stock v early]

/-- A thread of the stock has the cells it had at birth. -/
theorem cells_eq (h : Stocked m) {v : Handle} (early : v.serial < stockSize) :
    m.dictionary.cells v = origin.dictionary.cells v := by
  unfold Dictionary.cells
  rw [h.stock v early]

/-- The built-in words are what they were. -/
theorem body (h : Stocked m) (b : Builtin) :
    m.dictionary.body (handleOf b) = .builtin b := by
  obtain ⟨early, atBirth, _⟩ := origin_builtins b b.mem_all
  exact (h.body_eq early).trans atBirth

/-- They run while compiling if they did so at birth. -/
theorem isImmediate (h : Stocked m) (b : Builtin) :
    m.dictionary.isImmediate (handleOf b) = b.entry.immediate := by
  obtain ⟨early, _, atBirth, _⟩ := origin_builtins b b.mem_all
  rw [← atBirth]
  unfold Dictionary.isImmediate
  rw [h.stock _ early]

/-- The machine itself finds them under their names. -/
theorem builtin (h : Stocked m) (b : Builtin) :
    m.builtins.find? b.entry.name = some (handleOf b) := by
  obtain ⟨_, _, _, atBirth⟩ := origin_builtins b b.mem_all
  rw [h.builtins, atBirth]

/-- The cells of the outer interpreter are what they were. -/
theorem interpret (h : Stocked m) (i : Nat) :
    (m.dictionary.cells interpretHandle)[i]? = interpretCells[i]? := by
  rw [h.cells_eq (by decide), ← eq_of_sameCells origin_threads.1,
    Array.getElem?_toList]

/-- So are those of the thread that runs it. -/
theorem init (h : Stocked m) (i : Nat) :
    (m.dictionary.cells initHandle)[i]? = initCells[i]? := by
  rw [h.cells_eq (by decide), ← eq_of_sameCells origin_threads.2.1,
    Array.getElem?_toList]

/-- A word that is not native is a thread. -/
theorem body_of_not_native {d : Dictionary .none} {v : Handle}
    (present : (d.word? v).any (!·.isNative) = true) :
    ∃ cells, d.body v = .thread cells := by
  unfold Dictionary.body
  cases hw : d.word? v with
  | none => exact ⟨#[], rfl⟩
  | some w =>
    rw [hw] at present
    cases hbody : w.body with
    | thread cells => exact ⟨cells, by simp [hbody]⟩
    | builtin b => simp [Word.isNative, Word.cells?, hbody] at present
    | host code => exact code.elim

theorem interpret_thread (h : Stocked m) :
    ∃ cells, m.dictionary.body interpretHandle = .thread cells := by
  rw [h.body_eq (by decide)]
  exact body_of_not_native origin_threads.2.2.2.1

theorem init_thread (h : Stocked m) :
    ∃ cells, m.dictionary.body initHandle = .thread cells := by
  rw [h.body_eq (by decide)]
  exact body_of_not_native origin_threads.2.2.2.2

/-- It is found under its name. -/
theorem finds_init (h : Stocked m) :
    m.builtins.find? "init" = some initHandle := by
  rw [h.builtins]
  exact origin_threads.2.2.1

end Stocked

end Machine

end Forth
