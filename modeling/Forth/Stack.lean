/-!
# Stacks that remember their depth

A stack is the list of its items, top first, and the greatest depth it has
ever had.  Only `push` can raise that; taking items away leaves it alone.
-/

namespace Forth

/-- The two stacks of a machine. -/
inductive StackKind where
  | data
  | returns
deriving DecidableEq, Repr

/-- The name of a stack in messages. -/
def StackKind.text : StackKind → String
  | data => "data"
  | returns => "return"

/-- A stack, its depth, and the greatest depth it has had. -/
structure Stack (α : Type) where
  /-- The items, top first. -/
  items : List α
  depth : Nat
  peak : Nat
  depth_eq : depth = items.length := by rfl

namespace Stack

variable {α : Type}

/-- The stack of a new machine. -/
def empty : Stack α := ⟨[], 0, 0, rfl⟩

/-- The items, bottom first. -/
def toList (s : Stack α) : List α := s.items.reverse

/-- Put an item on top. -/
def push (s : Stack α) (a : α) : Stack α where
  items := a :: s.items
  depth := s.depth + 1
  peak := max s.peak (s.depth + 1)
  depth_eq := by rw [s.depth_eq, List.length_cons]

/-- Take the top item away. -/
def pop? (s : Stack α) : Option (α × Stack α) :=
  match s with
  | ⟨[], _, _, _⟩ => none
  | ⟨a :: rest, depth, peak, depth_eq⟩ =>
    some (a, ⟨rest, depth - 1, peak, by simp [depth_eq]⟩)

/-- The item a number of places below the top. -/
def peek? (s : Stack α) (n : Nat) : Option α := s.items[n]?

/-- Keep only the lowest items, at most `n` of them. -/
def truncate (s : Stack α) (n : Nat) : Stack α where
  items := s.items.drop (s.depth - n)
  depth := min s.depth n
  peak := s.peak
  depth_eq := by
    rw [List.length_drop, ← s.depth_eq]
    omega

/-- Take all items away. -/
def clear (s : Stack α) : Stack α := ⟨[], 0, s.peak, rfl⟩

@[simp] theorem items_push (s : Stack α) (a : α) :
    (s.push a).items = a :: s.items := rfl

/-- What was pushed is what comes off, and the items below are as before. -/
theorem pop?_push (s : Stack α) (a : α) :
    ∃ t, (s.push a).pop? = some (a, t) ∧ t.items = s.items :=
  ⟨_, rfl, rfl⟩

end Stack

end Forth
