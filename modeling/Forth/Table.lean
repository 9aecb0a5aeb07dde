/-!
# Tables by name

A table holds at most one item under each name.  The item stored last under a
name is the one found; storing under one name leaves all others alone.
-/

namespace Forth

/-- Items by name. -/
structure Table (α : Type) where
  entries : List (String × α)
deriving Repr

namespace Table

variable {α : Type}

/-- The table without items. -/
def empty : Table α := ⟨[]⟩

/-- The item stored under a name. -/
def find? (t : Table α) (name : String) : Option α :=
  (t.entries.find? fun e => e.1 == name).map Prod.snd

/-- Store an item, in place of the one that was under its name. -/
def insert (t : Table α) (name : String) (a : α) : Table α :=
  ⟨(name, a) :: t.entries.filter fun e => e.1 != name⟩

/-- The number of names. -/
def size (t : Table α) : Nat := t.entries.length

/-- The items in the order of their names. -/
def sorted (t : Table α) : List α :=
  (t.entries.mergeSort fun a b => a.1 ≤ b.1).map Prod.snd

/-- The item stored last is found. -/
@[simp] theorem find?_insert_self (t : Table α) (name : String) (a : α) :
    (t.insert name a).find? name = some a := by
  simp [find?, insert]

/-- Items under other names are not touched. -/
theorem find?_insert_of_ne (t : Table α) {name other : String} (a : α)
    (h : other ≠ name) : (t.insert name a).find? other = t.find? other := by
  have passed : (name == other) = false := beq_eq_false_iff_ne.mpr h.symm
  have kept : (fun e : String × α => decide (e.1 != name ∧ e.1 == other))
      = fun e => e.1 == other := by
    funext e
    by_cases he : e.1 = other
    · simp [he, h]
    · simp [he]
  unfold find? insert
  rw [List.find?_cons_of_neg (by simp [passed]), List.find?_filter, kept]

end Table

end Forth
