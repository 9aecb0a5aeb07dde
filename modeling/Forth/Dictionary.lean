import Forth.Cursor
import Forth.Number.Numeral
import Forth.Report
import Forth.Table
import Forth.Word

/-!
# The dictionary

The dictionary keeps every definition ever made, in the order in which they
were made, and the current definition of each name.  Defining a name again
adds a new definition and turns the name to it; the old one stays where it
is, for everything that still refers to it.  The only changes that a
definition sees after it was made are cells appended to its thread and the
mark that makes it immediate.

Main statements: `lookup_define_self` and `lookup_define_of_ne` for names,
`word?_define_of_lt` for definitions.
-/

namespace Forth

/-- All definitions, the current ones by name, and the most recent one. -/
structure Dictionary (E : Embedding) where
  words : Array (Word E)
  names : Table Handle
  last : Option Handle

namespace Dictionary

variable {E : Embedding}

/-- The dictionary without definitions. -/
def empty : Dictionary E := ⟨#[], .empty, none⟩

/-- The current definition of a name. -/
def lookup (d : Dictionary E) (name : String) : Option Handle :=
  d.names.find? name

/-- The definition behind a handle. -/
def word? (d : Dictionary E) (h : Handle) : Option (Word E) :=
  d.words[h.serial]?

/-- The number of names. -/
def size (d : Dictionary E) : Nat := d.names.size

/-- Whether a handle is the current definition of its name. -/
def isCurrent (d : Dictionary E) (h : Handle) : Bool :=
  d.lookup h.name == some h

/-- Add a definition and turn its name to it. -/
def define (d : Dictionary E) (w : Word E) : Handle × Dictionary E :=
  let h : Handle := ⟨d.words.size, w.name⟩
  (h,
    { words := d.words.push w
      names := d.names.insert w.name h
      last := some h })

/-- What a word does. -/
def body (d : Dictionary E) (h : Handle) : Body E :=
  ((d.word? h).map Word.body).getD (.thread #[])

/-- The cells of a word, none for words that are not threads. -/
def cells (d : Dictionary E) (h : Handle) : Array Cell :=
  ((d.word? h).bind Word.cells?).getD #[]

/-- Where a word was defined. -/
def locationOf (d : Dictionary E) (h : Handle) : Location :=
  ((d.word? h).map Word.location).getD .unspecified

/-- Whether a word also runs while compiling. -/
def isImmediate (d : Dictionary E) (h : Handle) : Bool :=
  ((d.word? h).map Word.immediate).getD false

/-- Make a word one that also runs while compiling. -/
def markImmediate (d : Dictionary E) (h : Handle) : Dictionary E :=
  { d with
    words := d.words.modify h.serial fun w => { w with immediate := true } }

/-- Append a cell to a thread.  Words that are not threads can not grow. -/
def append (d : Dictionary E) (h : Handle) (c : Cell) :
    Except Fault (Dictionary E) :=
  match d.body h with
  | .thread _ =>
    .ok { d with
      words := d.words.modify h.serial fun w =>
        match w.body with
        | .thread cells => { w with body := .thread (cells.push c) }
        | _ => w }
  | _ => .error (.failed h.name "can not compile into a native word")

/-- The current definitions, sorted by name. -/
def sorted (d : Dictionary E) : List Handle := d.names.sorted

/-- The value that a token stands for: the word of that name, else an
integer, a float or a truth value, else the text itself. -/
def translate (d : Dictionary E) (text : String) : Value :=
  match d.lookup text with
  | some w => .word w
  | none =>
    match Numeral.integer? text with
    | some n => .int n
    | none =>
      match Numeral.float? text with
      | some x => .float x
      | none =>
        match String.ofList (text.toList.map Char.toLower) with
        | "true" => .bool true
        | "false" => .bool false
        | _ => .string text

/-- Fill up with spaces on the right to a number of characters. -/
def padded (text : String) (width : Nat) : String :=
  text ++ String.ofList (List.replicate (width - text.length) ' ')

/-- A line of the listing. -/
def listingLine (d : Dictionary E) (width : Nat) (h : Handle) : String :=
  let mark := if d.isImmediate h then "  immediate" else "           "
  let description := ((d.word? h).map Word.description).getD ""
  padded h.name width ++ mark ++ "  --  " ++ description ++ "\n"

/-- The current definitions with their descriptions.  The column of names is
as wide as the longest one has bytes. -/
def listing (d : Dictionary E) : String :=
  let words := d.sorted
  let width := (words.map fun h => h.name.utf8ByteSize).foldl max 0
  toString words.length ++ " words defined.\n\n"
    ++ String.join (words.map (d.listingLine width))

/-- The call of a thread that stands at a cursor: the cell fetched last. -/
def callSite (d : Dictionary E) (c : Cursor) : CallSite :=
  ⟨c.word.name, d.locationOf c.word, some (c.index - 1)⟩

/-- A new definition is the current one of its name. -/
theorem lookup_define_self (d : Dictionary E) (w : Word E) :
    (d.define w).2.lookup w.name = some (d.define w).1 :=
  Table.find?_insert_self ..

/-- A new definition does not touch other names. -/
theorem lookup_define_of_ne (d : Dictionary E) (w : Word E) {name : String}
    (h : name ≠ w.name) : (d.define w).2.lookup name = d.lookup name :=
  Table.find?_insert_of_ne _ _ h

/-- A new definition does not touch older ones. -/
theorem word?_define_of_lt (d : Dictionary E) (w : Word E) {h : Handle}
    (hold : h.serial < d.words.size) :
    (d.define w).2.word? h = d.word? h := by
  simp [word?, define, Array.getElem?_push, Nat.ne_of_lt hold]

end Dictionary

end Forth
