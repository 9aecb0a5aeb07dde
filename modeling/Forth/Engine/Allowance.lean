import Forth.Engine

/-!
# A larger allowance changes no result

An allowance bounds how many cells a run may fetch and how deeply words may
execute words.  Of two computations one is a **cut** of the other if from
every machine it either starves or does exactly what the other does.  Cuts
pass through everything the inner interpreter is made of, because none of it
looks at whether an inner computation starved:

* `invoke_cut` and `startRun_cut` — around a native word and around a run;
* `act_cut` — a built-in word hands its way of executing words to at most one
  place, the end of `exec`;
* `step_cut` — one turn of the loop.

Native words can be cut as well: `Primitives.Cut` says that of two sets of
them, and putting some words out of reach is a cut (`without_cut`).

Hence the main statements, `execute_cut` and `loop_cut`: with a smaller
allowance, or with words out of reach, one gets a cut.  A result that is not
starvation is therefore the result for every larger allowance, and one may
speak of *the* result of a run that ends.
-/

namespace Forth

variable {E : Embedding} {ε α β : Type}

/-- One computation starves wherever it does not do what the other does. -/
def Cut (x y : EStateM (Halt ε) (Machine E) α) : Prop :=
  ∀ m, (∃ after, x m = .error .starved after) ∨ y m = x m

namespace Cut

/-- A computation is a cut of itself. -/
theorem refl (x : EStateM (Halt ε) (Machine E) α) : Cut x x :=
  fun _ => .inr rfl

/-- The computation that starves at once is a cut of any other. -/
theorem starve (x : EStateM (Halt ε) (Machine E) α) : Cut starve x :=
  fun m => .inl ⟨m, rfl⟩

/-- What comes after a computation may be cut. -/
theorem bind {x : EStateM (Halt ε) (Machine E) α}
    {f g : α → EStateM (Halt ε) (Machine E) β} (h : ∀ a, Cut (f a) (g a)) :
    Cut (x >>= f) (x >>= g) := by
  intro m
  simp only [Bind.bind, EStateM.bind]
  cases x m with
  | ok a after => exact h a after
  | error e after => exact .inr rfl

end Cut

/-- What a native word does may be cut. -/
theorem Machine.invoke_cut {x y : Run E Unit} (w : Handle) (h : Cut x y) :
    Cut (invoke w x) (invoke w y) := by
  intro m
  rcases h { m with executing := some w } with ⟨after, hx⟩ | hx
  · left
    simp only [invoke, hx]
    exact ⟨_, rfl⟩
  · right
    simp only [invoke, hx]

/-- The loop of a run may be cut. -/
theorem Machine.startRun_cut {x y : Run E Unit} (w : Handle) (h : Cut x y) :
    Cut (startRun w x) (startRun w y) := by
  intro m
  rcases h { m with base := m.returns.depth, cursor := some (.start w) } with
    ⟨after, hx⟩ | hx
  · left
    simp only [startRun, hx]
    exact ⟨_, rfl⟩
  · right
    simp only [startRun, hx]

/-- A built-in word executes another only as its last deed, and only if it is
`exec`. -/
theorem Builtin.act_cut {f g : Handle → Run E Unit}
    (h : ∀ w, Cut (f w) (g w)) (b : Builtin) : Cut (b.act f) (b.act g) := by
  cases b with
  | thread w =>
    cases w with
    | exec => exact Cut.bind h
    | _ => exact Cut.refl _
  | _ => exact Cut.refl _

namespace Primitives

/-- What the native words of one kind do is a cut of what those of another
do, as long as their ways of executing words are. -/
structure Cut (p q : Primitives E) : Prop where
  builtin : ∀ {f g : Handle → Run E Unit}, (∀ w, Forth.Cut (f w) (g w)) →
    ∀ b, Forth.Cut (p.builtin f b) (q.builtin g b)
  host : ∀ code, Forth.Cut (p.host code) (q.host code)

/-- The standard words do not look at whether an inner computation starved. -/
theorem standard_cut (host : E.Code → Run E Unit) :
    (standard host).Cut (standard host) :=
  ⟨Builtin.act_cut, fun _ => Forth.Cut.refl _⟩

/-- Words out of reach are a cut. -/
theorem Cut.without {p q : Primitives E} (h : p.Cut q)
    (barred : Builtin → Bool) : (p.without barred).Cut q := by
  refine ⟨fun {f g} hfg b => ?_, h.host⟩
  by_cases hb : barred b = true
  · simpa [Primitives.without, hb] using Forth.Cut.starve _
  · simpa [Primitives.without, hb] using h.builtin hfg b

end Primitives

/-- A turn of the loop executes a word only as its last deed. -/
theorem Machine.step_cut {f g : Handle → Run E Unit}
    (h : ∀ w, Cut (f w) (g w)) (c : Cursor) : Cut (step f c) (step g c) := by
  unfold step
  refine Cut.bind fun m => ?_
  split
  · exact Cut.refl _
  · refine Cut.bind fun cell => Cut.bind fun _ => ?_
    cases cell with
    | word w => exact h w
    | literal v => exact Cut.refl _

/-- Less allowance and weaker words, for both at once since they call each
other. -/
theorem Machine.execute_loop_cut {p q : Primitives E} (h : p.Cut q) (n : Nat) :
    ∀ k, n ≤ k → (∀ w, Cut (execute p n w) (execute q k w)) ∧
      Cut (loop p n) (loop q k) := by
  induction n with
  | zero => exact fun _ _ => ⟨fun _ => Cut.starve _, Cut.starve _⟩
  | succ n ih =>
    intro k hk
    obtain ⟨k, rfl⟩ : ∃ j, k = j + 1 := ⟨k - 1, by omega⟩
    obtain ⟨executeCut, loopCut⟩ := ih k (by omega)
    refine ⟨fun w m => ?_, fun m => ?_⟩
    · rw [execute, execute]
      dsimp only
      split
      · exact invoke_cut w (h.builtin executeCut _) _
      · exact invoke_cut w (h.host _) _
      · split
        · exact .inr rfl
        · exact startRun_cut w loopCut _
    · rw [loop, loop]
      dsimp only
      split
      · exact .inr rfl
      · next c _ =>
        rcases step_cut executeCut c m with ⟨after, hstep⟩ | hstep
        · exact .inl ⟨after, by rw [hstep]⟩
        · rw [hstep]
          split
          · exact loopCut _
          · exact .inr rfl

/-- Executing a word with a smaller allowance is a cut. -/
theorem Machine.execute_cut {p q : Primitives E} (h : p.Cut q) (w : Handle)
    {n k : Nat} (hk : n ≤ k) : Cut (execute p n w) (execute q k w) :=
  (execute_loop_cut h n k hk).1 w

/-- Carrying on a run with a smaller allowance is a cut. -/
theorem Machine.loop_cut {p q : Primitives E} (h : p.Cut q) {n k : Nat}
    (hk : n ≤ k) : Cut (loop p n) (loop q k) :=
  (execute_loop_cut h n k hk).2

end Forth
