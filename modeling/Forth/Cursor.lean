import Forth.Fault
import Forth.Value

/-!
# Cursors in threads

A cursor is a word and the index of the cell to fetch next.  An index equal
to the length of the thread means that the thread has run out.  A thread can
grow while cursors stand in it, so the thread, or its length, is an argument.

Main statements: `jump_index_le` and `fetch_index_le` say that no cursor ever
leaves its thread.
-/

namespace Forth

/-- A position in the thread of a word. -/
structure Cursor where
  word : Handle
  /-- The cell to fetch next. -/
  index : Nat
deriving DecidableEq, Repr

/-- An entry of the return stack: where a caller goes on, or a value that was
parked there. -/
inductive Frame where
  | call (caller : Cursor)
  | value (v : Value)

namespace Cursor

/-- The first cell of a word. -/
def start (w : Handle) : Cursor := ⟨w, 0⟩

/-- A cursor is written as word and index. -/
def text (c : Cursor) : String := c.word.name ++ "+" ++ toString c.index

/-- Whether a thread of the given length has run out. -/
def isExhausted (c : Cursor) (length : Nat) : Bool := length ≤ c.index

/-- The cell at the cursor, and the cursor behind it. -/
def fetch {α : Type} (c : Cursor) (cells : Array α) :
    Except Fault (α × Cursor) :=
  match cells[c.index]? with
  | some cell => .ok (cell, { c with index := c.index + 1 })
  | none => .error .threadExhausted

/-- Where a jump leads.  Offsets beyond the machine integers saturate. -/
def target (c : Cursor) (offset : Int64) : Int :=
  min (c.index + offset.toInt) Int64.maxValue.toInt

/-- Move by a signed number of cells.  The end of the thread can be reached
and nothing beyond it. -/
def jump (c : Cursor) (length : Nat) (offset : Int64) :
    Except Fault Cursor :=
  if 0 ≤ c.target offset ∧ c.target offset ≤ length then
    .ok { c with index := (c.target offset).toNat }
  else .error (.invalidBranch c.word.name (c.target offset))

/-- A jump stays within the thread. -/
theorem jump_index_le {c d : Cursor} {length : Nat} {offset : Int64}
    (h : c.jump length offset = .ok d) : d.index ≤ length := by
  unfold jump at h
  split at h
  · next hin =>
    cases h
    exact Int.toNat_le.mpr hin.2
  · cases h

/-- A fetch stays within the thread. -/
theorem fetch_index_le {α : Type} {c d : Cursor} {cells : Array α} {cell : α}
    (h : c.fetch cells = .ok (cell, d)) : d.index ≤ cells.size := by
  unfold fetch at h
  split at h
  · next hcell =>
    cases h
    obtain ⟨hlt, _⟩ := Array.getElem?_eq_some_iff.mp hcell
    exact hlt
  · cases h

/-- A jump leads to a cell of the same word. -/
theorem jump_word {c d : Cursor} {length : Nat} {offset : Int64}
    (h : c.jump length offset = .ok d) : d.word = c.word := by
  unfold jump at h
  split at h
  · cases h
    rfl
  · cases h

/-- So does a fetch. -/
theorem fetch_word {α : Type} {c d : Cursor} {cells : Array α} {cell : α}
    (h : c.fetch cells = .ok (cell, d)) : d.word = c.word := by
  unfold fetch at h
  split at h
  · cases h
    rfl
  · cases h

end Cursor

end Forth
