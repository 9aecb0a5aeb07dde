/-!
# Places in a source text

A place is named by the path of its text, a line and a column, both counted
from one.  The only way to move is over a character: a newline goes to the
first column of the next line, anything else one column on.  So the place of a
cursor is a function of the characters it has passed, and of nothing else.
-/

namespace Forth

/-- A place in a text that was read under a path. -/
structure Location where
  path : String
  line : Nat
  column : Nat
deriving DecidableEq, Repr

namespace Location

/-- The first place of a text. -/
def start (path : String) : Location := ⟨path, 1, 1⟩

/-- Where words are said to be defined when no token has been read yet. -/
def unspecified : Location := start "unspecified"

/-- Where words that have no source text are said to be defined. -/
def native : Location := start "native"

/-- The place after a character. -/
def advance (l : Location) (c : Char) : Location :=
  if c = '\n' then { l with line := l.line + 1, column := 1 }
  else { l with column := l.column + 1 }

/-- The place after a stretch of text. -/
def advanceOver (l : Location) (cs : List Char) : Location :=
  cs.foldl advance l

/-- Places are written as the path, then line and column in brackets. -/
def text (l : Location) : String :=
  l.path ++ " (" ++ toString l.line ++ ", " ++ toString l.column ++ ")"

/-- Places are ordered by path, then line, then column. -/
def order (a b : Location) : Ordering :=
  (compare a.path b.path).then
    ((compare a.line b.line).then (compare a.column b.column))

@[simp] theorem advanceOver_nil (l : Location) : l.advanceOver [] = l := rfl

@[simp] theorem advanceOver_cons (l : Location) (c : Char) (cs : List Char) :
    l.advanceOver (c :: cs) = (l.advance c).advanceOver cs := rfl

/-- Two stretches are passed one after the other. -/
theorem advanceOver_append (l : Location) (cs ds : List Char) :
    l.advanceOver (cs ++ ds) = (l.advanceOver cs).advanceOver ds :=
  List.foldl_append

end Location

end Forth
