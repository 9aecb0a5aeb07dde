import Forth.Builtin
import Forth.Location
import Forth.Value

/-!
# Words and the cells of their threads

A word is a name with something to do: a built-in, a word supplied by the
program that embeds the machine, or a thread of cells.  A cell either calls a
word or holds a value, which is pushed when it is reached and can also be
read as an operand by the cell before it.

The embedding program is a parameter.  It says what its own words are made
of, and what state of its own it keeps in the machine.  A machine over
`Embedding.none` has no words but the built-in ones, by its type.
-/

namespace Forth

/-- What a program that embeds a machine brings along: the code of its words
and a state for them. -/
structure Embedding where
  Code : Type
  State : Type

/-- No embedding program: the only native words are the built-in ones. -/
def Embedding.none : Embedding := ⟨Empty, Unit⟩

/-- One slot of a thread. -/
inductive Cell where
  | word (w : Handle)
  | literal (v : Value)

namespace Cell

/-- Words are called, other values are held. -/
def ofValue : Value → Cell
  | .word w => word w
  | v => literal v

/-- The value that a cell is read as when it is an operand. -/
def toValue : Cell → Value
  | word w => .word w
  | literal v => v

/-- How a cell is written. -/
def text (c : Cell) : String := c.toValue.text

/-- Whether two cells call the same word or hold equal values. -/
def equal : Cell → Cell → Bool
  | word v, word w => v == w
  | literal a, literal b => a.equal b
  | _, _ => false

/-- Compiling a value as an operand loses nothing. -/
@[simp] theorem toValue_ofValue (v : Value) : (ofValue v).toValue = v := by
  cases v <;> rfl

end Cell

/-- What a word does. -/
inductive Body (E : Embedding) where
  | builtin (b : Builtin)
  | host (code : E.Code)
  | thread (cells : Array Cell)

/-- A definition. -/
structure Word (E : Embedding) where
  name : String
  immediate : Bool
  body : Body E
  location : Location
  description : String
  signature : String

namespace Word

variable {E : Embedding}

/-- The definition of a word that is not a thread. -/
def native (entry : Entry) (body : Body E) : Word E :=
  ⟨entry.name, entry.immediate, body, .native, entry.description,
    entry.signature⟩

/-- The definition of a thread. -/
def ofCells (name : String) (location : Location) (cells : Array Cell) :
    Word E :=
  ⟨name, false, .thread cells, location, "", ""⟩

/-- The cells of a thread. -/
def cells? (w : Word E) : Option (Array Cell) :=
  match w.body with
  | .thread cells => some cells
  | _ => none

/-- The number of cells; words that are not threads have none. -/
def length (w : Word E) : Nat := (w.cells?.map Array.size).getD 0

/-- Whether a word is something other than a thread. -/
def isNative (w : Word E) : Bool := w.cells?.isNone

end Word

end Forth
