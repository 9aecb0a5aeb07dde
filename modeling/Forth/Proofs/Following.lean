import Forth.Machine.Run

/-!
# One computation follows another

Two machines are compared through a relation, and two computations by what
they make of related machines.  One computation **follows** another if from
related machines both give the same result or the same error, and leave
related machines behind.  Some errors of the leading computation may be
excused, and then nothing is asked of the one that follows.

Following passes through everything that actions are put together from:
`Follows.bind` for one after the other, `Follows.get_bind` for a look at the
machine, `Follows.run` for an action among computations that may starve.
-/

namespace Forth

variable {E : Embedding} {ε α β : Type}

/-- How a result answers to that of the leading computation. -/
inductive Matches (S : Machine E → Machine E → Prop) (excused : ε → Prop) :
    EStateM.Result ε (Machine E) α → EStateM.Result ε (Machine E) α → Prop
  | ok {a : α} {m t : Machine E} (related : S m t) :
      Matches S excused (.ok a m) (.ok a t)
  | error {e : ε} {m t : Machine E} (related : S m t) :
      Matches S excused (.error e m) (.error e t)
  | excused {e : ε} {m : Machine E} {r : EStateM.Result ε (Machine E) α}
      (fine : excused e) : Matches S excused (.error e m) r

/-- From related machines, `y` does what `x` does. -/
def Follows (S : Machine E → Machine E → Prop) (excused : ε → Prop)
    (x y : EStateM ε (Machine E) α) : Prop :=
  ∀ m t, S m t → Matches S excused (x m) (y t)

/-- Starving is always excused, a fault is if its kind is. -/
def Halt.Excused (excused : Fault → Prop) : Halt Fault → Prop
  | failed f => excused f
  | starved => True

/-- The machine that a computation leaves behind, whatever comes of it. -/
def leftBy : EStateM.Result ε (Machine E) α → Machine E
  | .ok _ m => m
  | .error _ m => m

/-- Whether a computation ended well. -/
def isOk : EStateM.Result ε (Machine E) α → Bool
  | .ok _ _ => true
  | .error _ _ => false

theorem eq_ok_of_isOk {r : EStateM.Result ε (Machine E) Unit}
    (h : isOk r = true) : r = .ok () (leftBy r) := by
  cases r with
  | ok a m => rfl
  | error e m => cases h

/-- A looser relation and more excuses keep a match. -/
theorem Matches.mono {S T : Machine E → Machine E → Prop}
    {excused pardoned : ε → Prop}
    {r s : EStateM.Result ε (Machine E) α}
    (h : Matches S excused r s) (looser : ∀ m t, S m t → T m t)
    (more : ∀ e, excused e → pardoned e) : Matches T pardoned r s := by
  cases h with
  | ok related => exact .ok (looser _ _ related)
  | error related => exact .error (looser _ _ related)
  | excused fine => exact .excused (more _ fine)

namespace Follows

variable {S : Machine E → Machine E → Prop} {excused : ε → Prop}

/-- A computation that does nothing follows itself. -/
theorem pure (a : α) :
    Follows S excused (Pure.pure a : EStateM ε (Machine E) α)
      (Pure.pure a) :=
  fun _ _ h => .ok h

/-- So does one that fails at once. -/
theorem throw (e : ε) :
    Follows S excused (MonadExcept.throw e : EStateM ε (Machine E) α)
      (MonadExcept.throw e) :=
  fun _ _ h => .error h

/-- One after the other. -/
theorem bind {x y : EStateM ε (Machine E) α}
    {f g : α → EStateM ε (Machine E) β} (first : Follows S excused x y)
    (next : ∀ a, Follows S excused (f a) (g a)) :
    Follows S excused (x >>= f) (y >>= g) := by
  intro m t h
  have hfirst := first m t h
  simp only [Bind.bind, EStateM.bind]
  generalize x m = r at hfirst
  generalize y t = s at hfirst
  cases hfirst with
  | ok related => exact next _ _ _ related
  | error related => exact .error related
  | excused fine => exact .excused fine

/-- A look at the machine, if what is done then does not depend on which of
two related machines was looked at. -/
theorem get_bind {f : Machine E → EStateM ε (Machine E) β}
    (same : ∀ m t, S m t → f m = f t)
    (next : ∀ m, Follows S excused (f m) (f m)) :
    Follows S excused (get >>= f) (get >>= f) := by
  intro m t h
  show Matches S excused (f m m) (f t t)
  rw [← same m t h]
  exact next m m t h

/-- An action among computations that may starve. -/
theorem run {excused : Fault → Prop} {pardoned : Halt Fault → Prop}
    {x y : Act E α} (h : Follows S excused x y)
    (pardon : ∀ f, excused f → pardoned (.failed f)) :
    Follows S pardoned x.run y.run := by
  intro m t related
  have hxy := h m t related
  simp only [Act.run, mapHalt]
  generalize x m = r at hxy
  generalize y t = s at hxy
  cases hxy with
  | ok related => exact .ok related
  | error related => exact .error related
  | excused fine => exact .excused (pardon _ fine)

end Follows

end Forth
