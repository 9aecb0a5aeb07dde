import Forth.Proofs.Calls
import Forth.Proofs.Effects
import Forth.Proofs.Tokens

/-!
# The outer interpreter as a thread

`interpret` reads a token, translates it, and executes, pushes or compiles
the value; `boot` runs the thread `init`, and that one the thread of the same
name, which does all this in words of the machine.  The thread keeps the
token and its value on the data stack while it decides what to do, and what
it executes runs within it and not at top level.

The thread is read cell by cell, against the machine at top level between two
tokens.  At cell 1 the two stand side by side; from there

* cells 1 to 4 read a token, or lead to the end of the thread if there is
  none (`At.word`, `At.hasToken`),
* cells 5 to 7 translate it (`At.translates`),
* cells 8 to 16 execute a word and go back to cell 1 (`At.executes`),
* cells 17 to 19 compile a word,
* cells 20 to 24 leave a value on the data stack, and
* cells 25 to 30 compile it.

`token_answers` puts this together for one token, `interpret_answers` for all
tokens, by induction on the allowance, and `boot_simulates_interpret` is the
result: the thread does what the rule says, token for token, with the same
machine at the end, or the same fault in the same place.
-/

namespace Forth.Machine

open Relation

/-! ## Reading the thread cell by cell -/

/-- A machine with other values on its data stack. -/
def holding (m : Machine .none) (items : List Value) : Machine .none :=
  { m with data := ⟨items, items.length, 0, rfl⟩ }

theorem alike_holding (m : Machine .none) :
    Alike m (m.holding m.data.items) :=
  { Alike.refl m with data := rfl }

/-- A place in the thread `interpret`. -/
def cell (i : Nat) : Cursor := ⟨interpretHandle, i⟩

/-- The return stack while it runs: the thread `init` waits. -/
def waiting : List Frame := [.call ⟨initHandle, 1⟩]

/-- The machine with `t` at cell `i` of the thread. -/
abbrev At (i : Nat) (m t : Machine .none)
    (frames : List Frame := waiting) : Prop :=
  Standing (cell i) frames m t

section Cells

variable {m t : Machine .none} {i : Nat} {frames : List Frame}

/-- Another machine that is alike does as well. -/
theorem Standing.of_alike {c : Cursor} {m' : Machine .none}
    (h : Standing c frames m t) (alike : Alike m m') : Standing c frames m' t :=
  { alike.symm.trans h.toAlike, h with }

theorem Stocked.present (stocked : Stocked m) {found : Cell}
    (present : interpretCells[i]? = some found) :
    (m.dictionary.cells (cell i).word)[(cell i).index]? = some found :=
  (stocked.interpret i).trans present

theorem Stocked.interpret_size (stocked : Stocked m) :
    (m.dictionary.cells interpretHandle).size = 33 := by
  rw [stocked.cells_eq (by decide), ← Array.length_toList,
    eq_of_sameCells origin_threads.1]
  rfl

/-- A quiet word of the thread. -/
theorem At.quiet {b : Builtin} {m' m'' : Machine .none}
    (h : At i m t frames)
    (stocked : Stocked m)
    (present : interpretCells[i]? = some (.word (handleOf b)))
    (quiet : b.isQuiet = true)
    (acted : b.act (fun _ => starve)
      { m with executing := some (handleOf b) } = .ok () m')
    (alike : Alike m' m'') :
    ∃ t', Turn Primitives.pure t t' ∧ At (i + 1) m'' t' frames := by
  obtain ⟨t', turn, after⟩ := Standing.quiet h (stocked.present present)
    (stocked.body b) quiet acted
  exact ⟨t', turn, after.of_alike alike⟩

/-- A quiet word of the thread that only moves values. -/
theorem At.leaves {b : Builtin} {items items' : List Value}
    (h : At i (m.holding items) t frames) (stocked : Stocked m)
    (present : interpretCells[i]? = some (.word (handleOf b)))
    (quiet : b.isQuiet = true)
    (leaves : Leaves (b.act fun _ => starve)
      { m.holding items with executing := some (handleOf b) } items') :
    ∃ t', Turn Primitives.pure t t' ∧
      At (i + 1) (m.holding items') t' frames := by
  obtain ⟨data, hitems, done⟩ := leaves
  refine h.quiet (stocked.of_same rfl rfl rfl) present quiet done ?_
  exact { Alike.refl m with data := hitems.symm }

/-- A decision of the thread. -/
theorem At.decides {k : Int64} {j : Nat} {v : Value} {rest : List Value}
    (h : At i (m.holding (v :: rest)) t frames) (stocked : Stocked m)
    (present : interpretCells[i]? =
      some (.word (handleOf (.thread .zeroBranch))))
    (operand : interpretCells[i + 1]? = some (.literal (.int k)))
    (leads : Cursor.jump (cell (i + 2)) 33 k = .ok (cell j)) :
    ∃ t', Turn Primitives.pure t t' ∧
      At (if v.isTruthy then i + 2 else j) (m.holding rest) t' frames := by
  have stocked' : Stocked (m.holding (v :: rest)) := stocked.of_same rfl rfl rfl
  have popped : (m.holding (v :: rest)).data.pop? =
      some (v, ⟨rest, rest.length, 0, rfl⟩) := rfl
  obtain ⟨t', turn, after⟩ := Standing.zeroBranch (d := cell j) h
    (stocked'.present present) (stocked'.body _)
    (stocked'.present (i := i + 1) operand) popped
    (fun _ => stocked'.interpret_size ▸ leads)
  refine ⟨t', turn, ?_⟩
  split at after
  · next truthy =>
    rw [if_pos truthy]
    exact after
  · next falsy =>
    rw [if_neg falsy]
    exact after

/-- The thread goes on elsewhere. -/
theorem At.goesTo {k : Int64} {j : Nat} (h : At i m t frames)
    (stocked : Stocked m)
    (present : interpretCells[i]? =
      some (.word (handleOf (.thread .branch))))
    (operand : interpretCells[i + 1]? = some (.literal (.int k)))
    (leads : Cursor.jump (cell (i + 2)) 33 k = .ok (cell j)) :
    ∃ t', Turn Primitives.pure t t' ∧ At j m t' frames :=
  Standing.branch h (stocked.present present) (stocked.body _)
    (stocked.present (i := i + 1) operand)
    (stocked.interpret_size ▸ leads)

end Cells

/-! ## Compiling -/

section Compiling

variable {m t : Machine .none}

/-- `,` compiles the value on top. -/
theorem At.comma {i : Nat} {v : Value} {rest : List Value} {u : Handle}
    (h : At i (m.holding (v :: rest)) t) (stocked : Stocked m)
    (present : interpretCells[i]? =
      some (.word (handleOf (.compile .comma))))
    (under : m.underConstruction = some u) :
    ∃ t', Turn Primitives.pure t t' ∧
      At (i + 1) (holding { m with
        dictionary := m.dictionary.change u (Word.grow (.ofValue v)) }
        rest) t' := by
  have acted : (CompileWord.act .comma : Act .none Unit)
      { m.holding (v :: rest) with
        executing := some (handleOf (.compile .comma)) } =
      .ok () { m.holding rest with
        dictionary := m.dictionary.change u (Word.grow (.ofValue v))
        executing := some (handleOf (.compile .comma)) } := by
    rw [CompileWord.act, Act.bind_apply, Act.pop_apply]
    exact compile_of_under (m := { m.holding rest with
      executing := some (handleOf (.compile .comma)) })
      (stocked.of_same rfl rfl rfl) under _
  refine h.quiet (stocked.of_same rfl rfl rfl) present rfl
    (Act.run_of_ok acted) ?_
  exact { Alike.refl _ with }

end Compiling

/-! ## One token -/

section Token

variable {m t : Machine .none} {frames : List Frame}

/-- Faults after which the two interpreters may differ. -/
def Excusable (f : Fault) : Prop := TellsTop f ∨ f = .nothingDefined

/-- Cell 1 reads a token. -/
theorem At.word (h : At 1 m t frames) (stocked : Stocked m) :
    ∃ t', Turn Primitives.pure t t' ∧
      At 2 (m.nextToken.2.holding
        (.string ((m.nextToken.1.map Token.text).getD "") ::
          m.nextToken.2.data.items)) t' frames := by
  let x : Machine .none :=
    { m with executing := some (handleOf (.console .word)) }
  have same : Alike m x := { Alike.refl m with }
  obtain ⟨token, after⟩ := same.nextToken
  have acted : (ConsoleWord.act .word : Act .none Unit) x =
      .ok () { x.nextToken.2 with
        data := x.nextToken.2.data.push
          (.string ((x.nextToken.1.map Token.text).getD "")) } := rfl
  refine h.quiet stocked rfl rfl (Act.run_of_ok acted) ?_
  refine { after.symm with data := ?_ }
  rw [token]
  exact congrArg (List.cons _) after.data.symm

/-- Cells 2 to 4 lead on if there is a token, and to cell 31 if there is
none. -/
theorem At.hasToken {text : String} (stocked : Stocked m)
    (h : At 2 (m.holding (.string text :: m.data.items)) t frames) :
    ∃ t', Reaches Primitives.pure t t' ∧
      At (if text = "" then 31 else 5)
        (m.holding (.string text :: m.data.items)) t' frames := by
  obtain ⟨t₁, turn₁, h₁⟩ := h.leaves (b := .stack .dup) stocked rfl rfl
    (leaves_dup rfl).run
  obtain ⟨t₂, turn₂, h₂⟩ := h₁.decides (j := 31) stocked rfl rfl rfl
  refine ⟨t₂, .head turn₁ (.single turn₂), ?_⟩
  by_cases empty : text = ""
  · subst empty
    exact h₂
  · have truthy : (Value.string text).isTruthy = true := by
      simpa [Value.isTruthy] using empty
    rw [if_pos truthy] at h₂
    rw [if_neg empty]
    exact h₂

/-- From cell 31 the thread ends, and the run with it. -/
theorem At.ends {v : Value} (stocked : Stocked m)
    (bottom : t.base = frames.length)
    (h : At 31 (m.holding (v :: m.data.items)) t (waiting ++ frames)) :
    ∃ t', Reaches Primitives.pure t t' ∧ t'.cursor = none ∧ Alike m t' ∧
      t'.returns.items = frames := by
  obtain ⟨t₁, turn₁, h₁⟩ := h.leaves (b := .stack .drop) stocked rfl rfl
    (leaves_drop rfl).run
  have base₁ := Reaches.base_eq (.single turn₁)
  have h₁' := h₁.of_alike (alike_holding m).symm
  obtain ⟨t₂, turn₂, h₂⟩ := Standing.exit h₁' (stocked.present rfl)
    (stocked.body _) (Nat.le_of_eq (base₁.trans bottom))
  have base₂ := Reaches.base_eq (.single turn₂)
  obtain ⟨t₃, turn₃, ended⟩ := h₂.exit_run (stocked.init 1)
    (stocked.body _) (Nat.le_of_eq (base₂.trans (base₁.trans bottom)).symm)
  exact ⟨t₃, .head turn₁ (.head turn₂ (.single turn₃)), ended⟩

/-- Cells 5 to 7 translate a token and tell words from other values. -/
theorem At.translates {text : String} (stocked : Stocked m)
    (h : At 5 (m.holding (.string text :: m.data.items)) t frames) :
    ∃ t', Reaches Primitives.pure t t' ∧
      At (if (m.dictionary.translate text).isWord then 8 else 20)
        (m.holding (m.dictionary.translate text :: m.data.items)) t'
        frames := by
  obtain ⟨t₁, turn₁, h₁⟩ := h.leaves (b := .name .wordFromName) stocked rfl
    rfl (leaves_wordFromName rfl).run
  obtain ⟨t₂, turn₂, h₂⟩ := h₁.decides (j := 20) stocked rfl rfl rfl
  exact ⟨t₂, .head turn₁ (.single turn₂), h₂⟩

/-- Cells 8 to 13 tell words that are executed from those that are
compiled. -/
theorem At.chooses {w : Handle} (stocked : Stocked m)
    (h : At 8 (m.holding (.word w :: m.data.items)) t frames) :
    ∃ t', Reaches Primitives.pure t t' ∧
      At (if m.interpreting ∨ m.dictionary.isImmediate w then 14 else 17)
        (m.holding (.word w :: m.data.items)) t' frames := by
  obtain ⟨t₁, turn₁, h₁⟩ := h.leaves (b := .stack .dup) stocked rfl rfl
    (leaves_dup rfl).run
  obtain ⟨t₂, turn₂, h₂⟩ := h₁.leaves (b := .name .isImmediate) stocked rfl
    rfl (leaves_isImmediate rfl).run
  obtain ⟨t₃, turn₃, h₃⟩ := h₂.leaves (b := .name .forthInterpret) stocked
    rfl rfl (leaves_forthInterpret rfl).run
  obtain ⟨t₄, turn₄, h₄⟩ := h₃.leaves (b := .math .or) stocked rfl rfl
    (leaves_or rfl).run
  obtain ⟨t₅, turn₅, h₅⟩ := h₄.decides (j := 17) stocked rfl rfl rfl
  refine ⟨t₅, .head turn₁ (.head turn₂ (.head turn₃ (.head turn₄
    (.single turn₅)))), ?_⟩
  replace h₅ : At
    (if (m.dictionary.isImmediate w || m.interpreting) = true then 14 else 17)
    (m.holding (.word w :: m.data.items)) t₅ frames := h₅
  have same : (m.dictionary.isImmediate w || m.interpreting) = true ↔
      m.interpreting ∨ m.dictionary.isImmediate w := by
    rw [Bool.or_eq_true]
    exact Or.comm
  by_cases runs : m.interpreting ∨ m.dictionary.isImmediate w
  · rw [if_pos runs]
    rwa [if_pos (same.2 runs)] at h₅
  · rw [if_neg runs]
    rwa [if_neg (fun h => runs (same.1 h))] at h₅

/-- Cells 17 to 19 compile a word. -/
theorem At.compilesWord {w u : Handle} (stocked : Stocked m)
    (under : m.underConstruction = some u)
    (h : At 17 (m.holding (.word w :: m.data.items)) t) :
    ∃ t', Reaches Primitives.pure t t' ∧
      At 1 { m with
        dictionary := m.dictionary.change u (Word.grow (.word w)) } t' := by
  obtain ⟨t₁, turn₁, h₁⟩ := h.comma stocked rfl under
  have stocked₁ := stocked.compiled under (.word w)
  obtain ⟨t₂, turn₂, h₂⟩ := At.goesTo (j := 1)
    (h₁.of_alike (alike_holding { m with dictionary := _ }).symm) stocked₁
    rfl rfl rfl
  exact ⟨t₂, .head turn₁ (.single turn₂), h₂⟩

/-- Cells 20 to 22 tell values that are pushed from those that are
compiled. -/
theorem At.keeps {v : Value} (stocked : Stocked m)
    (h : At 20 (m.holding (v :: m.data.items)) t frames) :
    ∃ t', Reaches Primitives.pure t t' ∧
      At (if m.interpreting then 23 else 25)
        (m.holding (v :: m.data.items)) t' frames := by
  obtain ⟨t₁, turn₁, h₁⟩ := h.leaves (b := .name .forthInterpret) stocked
    rfl rfl (leaves_forthInterpret rfl).run
  obtain ⟨t₂, turn₂, h₂⟩ := h₁.decides (j := 25) stocked rfl rfl rfl
  exact ⟨t₂, .head turn₁ (.single turn₂), h₂⟩

/-- Cells 25 to 30 compile a value behind the built-in `lit`. -/
theorem At.compilesValue {v : Value} {u : Handle} (stocked : Stocked m)
    (under : m.underConstruction = some u)
    (h : At 25 (m.holding (v :: m.data.items)) t) :
    ∃ t', Reaches Primitives.pure t t' ∧
      At 1 { m with
        dictionary := (m.dictionary.change u
          (Word.grow (.word (handleOf (.thread .lit))))).change u
          (Word.grow (.ofValue v)) } t' := by
  have stocked' : Stocked (m.holding (v :: m.data.items)) :=
    stocked.of_same rfl rfl rfl
  obtain ⟨t₁, turn₁, h₁⟩ := Standing.literal (.inr rfl) h
    (stocked'.present rfl) (stocked'.body _) (stocked'.present (i := 26) rfl)
  have h₁' : At 27 (m.holding (.word (handleOf (.thread .lit)) :: v ::
      m.data.items)) t₁ :=
    Standing.of_alike h₁ { Alike.refl _ with data := rfl }
  obtain ⟨t₂, turn₂, h₂⟩ := h₁'.comma stocked rfl under
  have stocked₂ := stocked.compiled under
    (.word (handleOf (.thread .lit)))
  obtain ⟨t₃, turn₃, h₃⟩ := h₂.comma stocked₂ rfl under
  have stocked₃ := stocked₂.compiled under (.ofValue v)
  obtain ⟨t₄, turn₄, h₄⟩ := At.goesTo (j := 1)
    (h₃.of_alike (alike_holding { m with dictionary := _ }).symm) stocked₃
    rfl rfl rfl
  exact ⟨t₄, .head turn₁ (.head turn₂ (.head turn₃ (.single turn₄))), h₄⟩

/-- A result by which a value has been parked at top level. -/
def Parks (r : EStateM.Result (Halt Fault) (Machine .none) Unit) : Prop :=
  ∃ m', r = .ok () m' ∧ m'.returns.items ≠ []

/-- Cell 14 executes a word as it is executed at top level. -/
theorem At.executes {w : Handle} (n : Nat) (stocked : Stocked m)
    (top : m.base = 0) (idle : m.cursor = none)
    (emptied : m.returns.items = [])
    (h : At 14 (m.holding (.word w :: m.data.items)) t) :
    Parks (execute peakless n w m) ∨
      Answers TellsTop (cell 15) waiting (execute peakless n w m) t := by
  have stocked' : Stocked (m.holding (.word w :: m.data.items)) :=
    stocked.of_same rfl rfl rfl
  have popped : (m.holding (.word w :: m.data.items)).data.pop? =
      some (.word w, ⟨m.data.items, m.data.items.length, 0, rfl⟩) := rfl
  obtain ⟨u, e, after, turns, fails⟩ := Standing.exec h
    (stocked'.present rfl) (stocked'.body _) popped
  have beside : Beside (cell 15) waiting m u :=
    { after with top := top, idle := idle, emptied := emptied }
  have settles := execute_beside n w m u beside
  generalize execute peakless n w m = r at settles
  generalize hs : execute Primitives.pure n w u = s at settles
  cases settles with
  | parked h => exact .inl ⟨_, rfl, h⟩
  | @entered r t₁ h =>
    right
    exact Answers.of_reaches (.single (turns n t₁ hs)) (h e t₁.blame)
  | matched h =>
    right
    cases h with
    | @ok _ m' t₁ ended =>
      exact ⟨_, .single (turns n t₁ hs),
        blind_ended _ _ m'.executing e m'.blame t₁.blame ended⟩
    | @error f m' t₁ ended =>
      cases f with
      | starved => exact trivial
      | failed f =>
        refine .inr ⟨t, _, .refl, fails n f t₁ hs, ?_⟩
        have alike : Alike m' t₁ := by
          rcases ended with beside | stopped
          · exact beside.toAlike
          · exact stopped.toAlike
        rw [captureBlame_eq]
        exact { alike with }
    | @excused f m' _ fine =>
      cases f with
      | starved => exact trivial
      | failed f => exact .inl fine

/-- Behind a word that was executed the thread goes back to cell 1. -/
theorem Answers.again {r : EStateM.Result (Halt Fault) (Machine .none) Unit}
    (stocked : ∀ m', r = .ok () m' → Stocked m')
    (h : Answers TellsTop (cell 15) waiting r t) :
    Answers Excusable (cell 1) waiting r t := by
  match r, h with
  | .ok () m', ⟨t₁, reach, .inl beside⟩ =>
    obtain ⟨t₂, turn, standing⟩ := At.goesTo (j := 1) beside.toStanding
      (stocked m' rfl) rfl rfl rfl
    exact ⟨t₂, reach.tail turn, .inl { beside with toStanding := standing }⟩
  | .ok () m', ⟨t₁, reach, .inr stopped⟩ =>
    exact ⟨t₁, reach, .inr stopped⟩
  | .error (.failed f) m', .inl tells => exact .inl (.inl tells)
  | .error (.failed f) m', .inr rest => exact .inr rest
  | .error .starved m', _ => exact trivial

/-- A token that is processed without asking for the greatest depth is
processed so. -/
theorem processToken_of_peakless {n : Nat} {token : Token}
    {m' : Machine .none}
    (done : processToken peakless n token m = .ok () m') :
    processToken Primitives.pure n token m = .ok () m' := by
  have cut := processToken_cut (Primitives.pure_cut.without
    (· == .stack .maxDepth)) token (Nat.le_refl n)
  exact cut.eq_ok done

/-- A token leaves the stock in place. -/
theorem Stocked.processToken {n : Nat} {token : Token} {m' : Machine .none}
    (stocked : Stocked m)
    (done : processToken peakless n token m = .ok () m') : Stocked m' := by
  have grows := processToken_grows n token m
  rw [processToken_of_peakless done] at grows
  exact stocked.of_grows grows

/-- Behind what is neither executed nor fails the two stand side by side. -/
theorem At.settled {m' t' : Machine .none} {excused : Fault → Prop}
    (reach : Reaches Primitives.pure t t') (h : At 1 m' t')
    (top : m'.base = 0) (idle : m'.cursor = none)
    (emptied : m'.returns.items = []) :
    Answers excused (cell 1) waiting (.ok () m') t :=
  ⟨t', reach, .inl { h with top := top, idle := idle, emptied := emptied }⟩

/-- Cells 20 to 30 push or compile a value that is not a word. -/
theorem value_answers (n : Nat) {v : Value} (stocked : Stocked m)
    (top : m.base = 0) (idle : m.cursor = none)
    (emptied : m.returns.items = []) (notWord : v.isWord = false)
    (h : At 20 (m.holding (v :: m.data.items)) t) :
    Answers Excusable (cell 1) waiting (processValue peakless n v m) t := by
  obtain ⟨t₁, reach₁, h₁⟩ := h.keeps stocked
  rw [processValue_of_not_word peakless n notWord]
  by_cases mode : m.interpreting = true
  · rw [if_pos mode] at h₁ ⊢
    have stocked' : Stocked (m.holding (v :: m.data.items)) :=
      stocked.of_same rfl rfl rfl
    obtain ⟨t₂, turn₂, h₂⟩ := h₁.goesTo (j := 1) stocked' rfl rfl rfl
    have h₂' : At 1 { m with data := m.data.push v } t₂ :=
      Standing.of_alike h₂ { Alike.refl m with data := rfl }
    exact At.settled (reach₁.tail turn₂) h₂' top idle emptied
  · rw [if_neg mode] at h₁ ⊢
    cases under : m.underConstruction with
    | none =>
      have lit : m.builtins.find? "lit" = some (handleOf (.thread .lit)) :=
        stocked.builtin (.thread .lit)
      rw [Act.run_apply, Act.bind_apply, Act.builtin_apply, lit]
      dsimp only
      rw [Act.bind_apply, Act.compile_apply, under]
      exact .inl (.inr rfl)
    | some u =>
      obtain ⟨t₂, reach₂, h₂⟩ := At.compilesValue stocked under h₁
      rw [Cell.ofValue_of_not_word notWord] at h₂
      rw [Act.run_of_ok (compileLiteral_of_under stocked under v)]
      exact At.settled (reach₁.trans reach₂) h₂ top idle emptied

/-- **One token.**  From cell 5, with the token on the data stack, the thread
does what processing the token at top level does, and goes back to cell 1. -/
theorem token_answers (n : Nat) (token : Token) (stocked : Stocked m)
    (top : m.base = 0) (idle : m.cursor = none)
    (emptied : m.returns.items = [])
    (h : At 5 (m.holding (.string token.text :: m.data.items)) t) :
    Parks (processToken peakless n token m) ∨
      Answers Excusable (cell 1) waiting (processToken peakless n token m)
        t := by
  have kept : ∀ m', processToken peakless n token m = .ok () m' →
      Stocked m' := fun m' done => stocked.processToken done
  obtain ⟨t₁, reach₁, h₁⟩ := h.translates stocked
  unfold Machine.processToken at kept ⊢
  generalize m.dictionary.translate token.text = v at h₁ kept
  unfold processValue at kept ⊢
  cases v with
  | word w =>
    obtain ⟨t₂, reach₂, h₂⟩ := At.chooses stocked h₁
    by_cases runs : m.interpreting ∨ m.dictionary.isImmediate w
    · rw [if_pos runs] at h₂
      simp only [if_pos runs] at kept ⊢
      rcases h₂.executes n stocked top idle emptied with parks | answers
      · exact .inl parks
      · right
        exact (answers.again kept).of_reaches (reach₁.trans reach₂)
    · right
      rw [if_neg runs] at h₂
      simp only [if_neg runs]
      cases under : m.underConstruction with
      | none =>
        rw [Act.run_apply, Act.compile_apply, under]
        exact .inl (.inr rfl)
      | some u =>
        obtain ⟨t₃, reach₃, h₃⟩ := h₂.compilesWord stocked under
        rw [Act.run_of_ok (compile_of_under stocked under _)]
        exact At.settled (reach₁.trans (reach₂.trans reach₃)) h₃ top idle
          emptied
  | _ => exact .inr ((value_answers n stocked top idle emptied rfl
      h₁).of_reaches reach₁)

end Token

/-! ## All tokens -/

/-- What has become of the thread, given the result of interpreting at top
level. -/
def Simulates (r : EStateM.Result (Halt Report) (Machine .none) Unit)
    (t : Machine .none) : Prop :=
  match r with
  | .ok () m' => ∃ t', Reaches Primitives.pure t t' ∧ t'.cursor = none ∧
      Alike m' t'
  | .error (.failed report) m' => Excusable report.fault ∨
      ∃ f m₁ x t', Reaches Primitives.pure t x ∧
        Fails Primitives.pure x f t' ∧ Alike m₁ t' ∧
        m₁.recover f = (report, m')
  | .error .starved _ => True

theorem Simulates.of_reaches
    {r : EStateM.Result (Halt Report) (Machine .none) Unit}
    {t u : Machine .none} (turns : Reaches Primitives.pure t u)
    (h : Simulates r u) : Simulates r t := by
  unfold Simulates at h ⊢
  split at h
  · obtain ⟨t', reach, rest⟩ := h
    exact ⟨t', turns.trans reach, rest⟩
  · rcases h with fine | ⟨f, m₁, x, t', reach, rest⟩
    · exact .inl fine
    · exact .inr ⟨f, m₁, x, t', turns.trans reach, rest⟩
  · exact trivial

/-- A machine that reads a token goes on as it was, with its stock. -/
theorem nextToken_control {m m₁ : Machine .none} {token : Option Token}
    (read : m.nextToken = (token, m₁)) :
    SameControl m m₁ ∧ (Stocked m → Stocked m₁) := by
  have touches := touches_nextToken m
  rw [read] at touches
  exact ⟨touches.sameControl, fun h => h.of_grows touches.grows⟩

/-- A token that a machine reads has a text. -/
theorem text_ne_of_read {m m₁ : Machine .none} {token : Token}
    (read : m.nextToken = (some token, m₁)) : token.text ≠ "" := by
  unfold nextToken at read
  split at read
  · cases read
  · next t input h =>
    cases read
    exact Source.text_ne_of_nextToken h

/-- **All tokens.**  From cell 1 the thread does what interpreting at top
level does, as long as every token leaves the return stack empty there. -/
theorem interpret_answers (n : Nat) {m t : Machine .none}
    (stocked : Stocked m) (going : m.finished = false) (low : t.base = 0)
    (balanced : ∀ x, ReflTransGen (Consumes Primitives.pure) m x →
      x.returns.items = [])
    (h : Beside (cell 1) waiting m t) :
    Simulates (interpret peakless .stop n m) t := by
  induction n generalizing m t with
  | zero => exact trivial
  | succ n ih =>
    obtain ⟨t₁, turn₁, h₁⟩ := At.word h.toStanding stocked
    rw [interpret]
    simp only [going, Bool.false_eq_true, if_false]
    rcases hread : m.nextToken with ⟨_ | token, m₁⟩
    · -- The input is at its end, and so is the thread.
      obtain ⟨_, keeps⟩ := nextToken_control hread
      rw [hread] at h₁
      obtain ⟨t₂, reach₂, h₂⟩ := At.hasToken (keeps stocked) h₁
      have base := Reaches.base_eq (.head turn₁ reach₂)
      obtain ⟨t₃, reach₃, halted, alike, _⟩ := At.ends (keeps stocked)
        (base.trans low : t₂.base = ([] : List Frame).length) h₂
      exact ⟨t₃, .head turn₁ (reach₂.trans reach₃), halted, alike⟩
    · obtain ⟨same, keeps⟩ := nextToken_control hread
      have stocked₁ := keeps stocked
      rw [hread] at h₁
      obtain ⟨t₂, reach₂, h₂⟩ := At.hasToken stocked₁ h₁
      replace h₂ := (if_neg (text_ne_of_read hread)) ▸ h₂
      have answers := token_answers n token stocked₁
        (same.base.trans h.top) (same.cursor.trans h.idle)
        ((congrArg Stack.items same.returns).trans h.emptied) h₂
      have turns := ReflTransGen.head turn₁ reach₂
      dsimp only
      cases hr : processToken peakless n token m₁ with
      | error e m' =>
        rw [hr] at answers
        rcases answers with ⟨_, parks, _⟩ | answers
        · cases parks
        cases e with
        | starved => exact trivial
        | failed f =>
          rcases answers with fine | ⟨x, t', reach, fails, alike⟩
          · exact .inl fine
          · exact .inr ⟨f, m', x, t', turns.trans reach, fails, alike, rfl⟩
      | ok a m' =>
        have consumes : Consumes Primitives.pure m m' :=
          ⟨n, token, m₁, going, hread, processToken_of_peakless hr⟩
        rw [hr] at answers
        rcases answers with ⟨m'', parks, unbalanced⟩ | answers
        · cases parks
          exact absurd (balanced m' (.single consumes)) unbalanced
        obtain ⟨t', reach, beside | stopped⟩ := answers
        · apply Simulates.of_reaches (turns.trans reach)
          have going' := Reaches.going (turns.trans reach)
            (h.finished.trans going) (by simp [beside.inThread])
          exact ih (stocked₁.processToken hr)
            (beside.finished.symm.trans going')
            ((Reaches.base_eq (turns.trans reach)).trans low)
            (fun x later => balanced x (.head consumes later)) beside
        · cases n with
          | zero => exact trivial
          | succ n =>
            rw [interpret]
            simp only [stopped.told, if_true]
            exact ⟨t', turns.trans reach, stopped.halted', stopped.toAlike⟩

/-! ## Booting -/

/-- Giving up a failed run leaves alike machines, with the same fault in the
same place. -/
theorem Alike.recover {m t : Machine .none} (h : Alike m t) (f : Fault) :
    Alike (m.recover f).2 (t.recover f).2 ∧
      (t.recover f).1.fault = (m.recover f).1.fault ∧
      (t.recover f).1.location = (m.recover f).1.location := by
  have blameless : Alike { m with blame := none } { t with blame := none } :=
    { h with }
  have recorded := blameless.record (.aborted f.message m.location)
    (.aborted f.message t.location)
  refine ⟨?_, rfl, h.location⟩
  exact { recorded with interpreting := rfl }

section Boot

variable {m : Machine .none}

/-- The machine at the start of the thread `init`. -/
def booted (m : Machine .none) : Machine .none :=
  { m.forgetBlame with
    base := m.forgetBlame.returns.depth
    cursor := some (.start initHandle) }

/-- With no thread running the thread `init` starts a run. -/
theorem execute_init (stocked : Stocked m) (idle : m.cursor = none)
    (p : Primitives .none) (n : Nat) :
    execute p (n + 1) initHandle m =
      startRun initHandle (loop p n) m.forgetBlame := by
  obtain ⟨cells, body⟩ := stocked.init_thread
  exact execute_thread_idle p n body idle

/-- Booting is a run of the thread `init`. -/
theorem boot_eq (stocked : Stocked m) (idle : m.cursor = none)
    (going : m.finished = false) (n : Nat) :
    boot Primitives.pure .stop (n + 2) m =
      match startRun initHandle (loop Primitives.pure n) m.forgetBlame with
      | .ok () after => .ok () after
      | .error .starved after => .error .starved after
      | .error (.failed f) after => handleError .stop f after := by
  have named : boot Primitives.pure .stop (n + 2) m =
      bootFrom Primitives.pure .stop initHandle (n + 2) m := by
    unfold boot
    rw [Act.bind_apply]
    unfold mapHalt
    rw [Act.builtin_apply, stocked.finds_init]
  rw [named, bootFrom]
  simp only [going, Bool.false_eq_true, if_false,
    execute_init stocked idle]
  cases startRun initHandle (loop Primitives.pure n) m.forgetBlame with
  | ok a after => rfl
  | error e after =>
    cases e with
    | starved => rfl
    | failed f => rfl

/-- From the start of `init` the thread `interpret` comes to its cell 1, with
whatever there was below it on the return stack. -/
theorem reaches_word (stocked : Stocked m) :
    ∃ t, Reaches Primitives.pure m.booted t ∧
      t.base = m.returns.items.length ∧
      At 1 { m with interpreting := true } t
        (waiting ++ m.returns.items) := by
  have depth : m.forgetBlame.returns.depth = m.returns.items.length := by
    rw [forgetBlame_eq, m.returns.depth_eq]
  have atInit : Standing (.start initHandle) m.returns.items m m.booted := by
    unfold booted
    rw [depth, forgetBlame_eq]
    exact { Alike.refl m with
      low := Nat.le_refl _
      inThread := rfl
      returns := rfl }
  obtain ⟨cells, body⟩ := stocked.interpret_thread
  obtain ⟨u, after, reach₁⟩ := CallSite.enters (.cell (stocked.init 0)) atInit
    body
  have atStart : At 0 m (u.descend ⟨initHandle, 1⟩ interpretHandle)
      (waiting ++ m.returns.items) :=
    { after with
      low := Nat.le_succ_of_le after.low
      inThread := rfl
      returns := congrArg _ after.returns }
  have acted : (CompileWord.act .interpretMode : Act .none Unit)
      { m with executing := some (handleOf (.compile .interpretMode)) } =
      .ok () (setInterpreting { m with
        executing := some (handleOf (.compile .interpretMode)) } true) := rfl
  have alike : Alike (setInterpreting { m with
      executing := some (handleOf (.compile .interpretMode)) } true)
      { m with interpreting := true } := by
    rw [setInterpreting_eq]
    exact { Alike.refl { m with interpreting := true } with }
  obtain ⟨t, turn₂, h⟩ := atStart.quiet stocked rfl rfl
    (Act.run_of_ok acted) alike
  have reach := reach₁.tail turn₂
  exact ⟨t, reach, (Reaches.base_eq reach).trans depth, h⟩

/-- What asking for a token comes to, once the machine interprets. -/
def asked (m : Machine .none) : Option Token × Machine .none :=
  { m with interpreting := true }.nextToken

/-- There it asks for a token. -/
theorem reaches_read (stocked : Stocked m) :
    ∃ t, Reaches Primitives.pure m.booted t ∧
      t.base = m.returns.items.length ∧
      At 2 (m.asked.2.holding
        (.string ((m.asked.1.map Token.text).getD "") ::
          m.asked.2.data.items)) t (waiting ++ m.returns.items) := by
  obtain ⟨t₀, reach, bottom, atWord⟩ := reaches_word stocked
  obtain ⟨t, turn, h⟩ := At.word atWord
    (stocked.of_same (t := { m with interpreting := true }) rfl rfl rfl)
  have base := Reaches.base_eq (.single turn)
  exact ⟨t, reach.tail turn, base.trans bottom, h⟩

theorem Stocked.asked (stocked : Stocked m) : Stocked m.asked.2 :=
  (stocked.of_same (t := { m with interpreting := true }) rfl rfl
    rfl).of_grows (touches_nextToken _).grows

/-- If there is none, the thread ends, with the return stack as it was. -/
theorem reaches_end (stocked : Stocked m) (none : m.asked.1 = none) :
    ∃ t, Reaches Primitives.pure m.booted t ∧ t.cursor = .none ∧
      Alike m.asked.2 t ∧ t.returns.items = m.returns.items := by
  obtain ⟨t₁, reach₁, bottom, h₁⟩ := reaches_read stocked
  rw [none] at h₁
  obtain ⟨t₂, reach₂, h₂⟩ := At.hasToken stocked.asked h₁
  have base := Reaches.base_eq reach₂
  obtain ⟨t₃, reach₃, ended⟩ := At.ends stocked.asked (base.trans bottom) h₂
  exact ⟨t₃, reach₁.trans (reach₂.trans reach₃), ended⟩

/-- With nothing on the return stack, it stands beside the machine at top
level. -/
theorem reaches_interpret (stocked : Stocked m) (top : m.base = 0)
    (idle : m.cursor = none) (emptied : m.returns.items = [])
    (mode : m.interpreting = true) :
    ∃ t, Reaches Primitives.pure m.booted t ∧ t.base = 0 ∧
      Beside (cell 1) waiting m t := by
  obtain ⟨t, reach, bottom, h⟩ := reaches_word stocked
  rw [emptied] at bottom h
  have same : Alike { m with interpreting := true } m :=
    { Alike.refl m with interpreting := mode }
  refine ⟨t, reach, bottom, ?_⟩
  exact { h.of_alike same with
    top := top
    idle := idle
    emptied := emptied }

/-- If the thread comes to its end, booting ends well. -/
theorem boot_of_reaches (stocked : Stocked m) (idle : m.cursor = none)
    (going : m.finished = false) {m' t : Machine .none}
    (reach : Reaches Primitives.pure m.booted t) (halted : t.cursor = none)
    (alike : Alike m' t) :
    ∃ k t', boot Primitives.pure .stop k m = .ok () t' ∧ Alike m' t' := by
  have ended := loop_of_none Primitives.pure 0 halted
  obtain ⟨n, ran⟩ := exists_loop_of_reaches Primitives.pure_cut reach
    (n := 1) (ended ▸ ends_ok () t)
  refine ⟨n + 2, { t with cursor := none, base := m.forgetBlame.base }, ?_,
    { alike with }⟩
  have run := startRun_of_ok (m := m.forgetBlame) (ran.trans ended)
  rw [boot_eq stocked idle going, run]

/-- If a turn of the thread fails, booting fails with that fault. -/
theorem boot_of_fails (stocked : Stocked m) (idle : m.cursor = none)
    (going : m.finished = false) {m₁ x t : Machine .none} {f : Fault}
    (reach : Reaches Primitives.pure m.booted x)
    (fails : Fails Primitives.pure x f t) (alike : Alike m₁ t) :
    ∃ k report t', boot Primitives.pure .stop k m =
        .error (.failed report) t' ∧
      report.fault = (m₁.recover f).1.fault ∧
      report.location = (m₁.recover f).1.location ∧
      Alike (m₁.recover f).2 t' := by
  obtain ⟨j, failed⟩ := exists_loop_of_fails fails
  obtain ⟨n, ran⟩ := exists_loop_of_reaches Primitives.pure_cut reach
    (failed ▸ ends_failed f t)
  have given : Alike m₁ { t.captureBlame with
      cursor := none
      base := m.forgetBlame.base } := by
    rw [captureBlame_eq]
    exact { alike with }
  obtain ⟨after, fault, location⟩ := given.recover f
  refine ⟨n + 2, _, _, ?_, fault, location, after⟩
  have run := startRun_of_failed (m := m.forgetBlame) (ran.trans failed)
  rw [boot_eq stocked idle going, run]
  rfl

end Boot

/-- A machine that is given a text to read. -/
def given (m : Machine .none) (path text : String) : Machine .none :=
  { m with input := .ofText path text }

/-- **The thread does what the rule says.**  Let a machine at top level, with
nothing on its return stack, interpret a text until it is done or fails,
without asking for the greatest depth of the data stack and so that every
token that it processes leaves the return stack empty.  If that ends well,
booting from the same machine with the same text ends well; if it fails, with
a fault other than those by which a word can tell that it runs at top level
or that nothing is under construction, booting fails with the same fault in
the same place.  Either way the machines at the end are alike. -/
theorem boot_simulates_interpret {n : Nat} {m : Machine .none}
    (born : Born m) (idle : m.cursor = none) (top : m.base = 0)
    (emptied : m.returns.items = []) (mode : m.interpreting = true)
    (going : m.finished = false) (path text : String)
    (avoids : Avoids (.stack .maxDepth) (fun p => interpret p .stop n)
      (m.given path text))
    (balanced : ∀ x,
      ReflTransGen (Consumes Primitives.pure) (m.given path text) x →
      x.returns.items = []) :
    (∀ m', interpret Primitives.pure .stop n (m.given path text) =
        .ok () m' →
      ∃ k t, boot Primitives.pure .stop k (m.given path text) = .ok () t ∧
        Alike m' t) ∧
    (∀ report m', interpret Primitives.pure .stop n (m.given path text) =
        .error (.failed report) m' →
      report.fault ≠ .noThread → report.fault ≠ .nothingDefined →
      report.fault ≠ .underflow .returns →
      ∃ k report' t, boot Primitives.pure .stop k (m.given path text) =
          .error (.failed report') t ∧
        report'.fault = report.fault ∧ report'.location = report.location ∧
        Alike m' t) := by
  have stocked : Stocked (m.given path text) :=
    born.stocked.of_same rfl rfl rfl
  obtain ⟨t, reach, low, beside⟩ := reaches_interpret stocked top idle
    emptied mode
  have simulates := (interpret_answers n stocked going low balanced
    beside).of_reaches reach
  have barred : interpret peakless .stop n (m.given path text) =
    interpret Primitives.pure .stop n (m.given path text) := avoids
  rw [barred] at simulates
  constructor
  · intro m' done
    rw [done] at simulates
    obtain ⟨t', ends, halted, alike⟩ := simulates
    exact boot_of_reaches stocked idle going ends halted alike
  · intro report m' failed thread defined returns
    rw [failed] at simulates
    rcases simulates with fine | ⟨f, m₁, x, t', ends, fails, alike, given⟩
    · rcases fine with (h | h) | h
      · exact absurd h thread
      · exact absurd h returns
      · exact absurd h defined
    · have booted := boot_of_fails stocked idle going ends fails alike
      rw [given] at booted
      exact booted

/-- Whether every token leaves the return stack empty, looked at with an
allowance that suffices. -/
def staysEmpty : Nat → Machine .none → Bool
  | 0, _ => false
  | n + 1, m =>
    m.returns.items.isEmpty &&
      (m.finished || match m.nextToken with
        | (none, _) => true
        | (some token, read) =>
          match processToken Primitives.pure n token read with
          | .ok () t => staysEmpty n t
          | .error (.failed _) _ => true
          | .error .starved _ => false)

theorem returns_of_staysEmpty {m x : Machine .none}
    (consumed : ReflTransGen (Consumes Primitives.pure) m x) {n : Nat}
    (h : staysEmpty n m = true) : x.returns.items = [] := by
  induction consumed using ReflTransGen.head_induction_on generalizing n with
  | refl =>
    cases n with
    | zero => cases h
    | succ n =>
      rw [staysEmpty, Bool.and_eq_true] at h
      exact List.isEmpty_iff.1 h.1
  | @head m u consumes _ ih =>
    cases n with
    | zero => cases h
    | succ n =>
      obtain ⟨k, token, read, going, hread, done⟩ := consumes
      rw [staysEmpty, Bool.and_eq_true] at h
      replace h := h.2
      simp only [going, hread, Bool.false_or] at h
      -- The allowance of the test and that of the token give one result.
      have more := processToken_cut Primitives.pure_cut token
        (Nat.le_max_left k n)
      have enough := more.eq_ok done
      split at h
      · next t ran =>
        have fewer := processToken_cut Primitives.pure_cut token
          (Nat.le_max_right k n)
        have same := fewer.eq_ok ran
        rw [enough] at same
        cases same
        exact ih h
      · next f t ran =>
        have fewer := processToken_cut Primitives.pure_cut token
          (Nat.le_max_right k n)
        have same := (fewer.eq_of_ends (ran ▸ ends_failed f t)).trans ran
        rw [enough] at same
        cases same
      · cases h

/-- A text with a definition and a call, interpreted by a new machine. -/
def squared : EStateM.Result (Halt Report) (Machine .none) Unit :=
  interpret Primitives.pure .stop 100
    (origin.given "" ": square dup * ; 7 square")

/-- Booting a new machine with the text does the same. -/
theorem square_booted :
    isOk squared = true ∧ (leftBy squared).data.depth = 1 ∧
    ∃ k t, boot Primitives.pure .stop k
        (origin.given "" ": square dup * ; 7 square") = .ok () t ∧
      Alike (leftBy squared) t := by
  have facts : isOk squared = true ∧ (leftBy squared).data.depth = 1 ∧
      isOk (interpret peakless .stop 100
        (origin.given "" ": square dup * ; 7 square")) = true ∧
      staysEmpty 100 (origin.given "" ": square dup * ; 7 square") = true ∧
      origin.cursor = none ∧ origin.base = 0 ∧
      origin.returns.items.isEmpty = true ∧ origin.interpreting = true ∧
      origin.finished = false := by decide +kernel
  obtain ⟨done, depth, peak, empty, idle, top, emptied, mode, going⟩ := facts
  refine ⟨done, depth, ?_⟩
  have simulated := boot_simulates_interpret (n := 100)
    ⟨.unlimited, none, .refl⟩ idle top (List.isEmpty_iff.1 emptied) mode
    going "" ": square dup * ; 7 square"
    (avoids_of_isOk (interpret_cut (Primitives.pure_cut.without _) .stop 100
      100 (Nat.le_refl _)) peak)
    (fun x consumed => returns_of_staysEmpty consumed empty)
  exact simulated.1 _ (eq_ok_of_isOk done)

end Forth.Machine
