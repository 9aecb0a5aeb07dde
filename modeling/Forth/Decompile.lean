import Forth.Machine.Basic

/-!
# Definitions as text

A definition can be shown in two ways.  `Word.dump` lists the cells one by
one with their indices.  `Machine.definitionText` gives source text that
compiles to the same cells: a value after the built-in `lit` is written as
the value, a word that would run while compiling is put in by way of its
name, a value that stands alone is appended between brackets, and the `exit`
at the end is left to `;`.
-/

namespace Forth

namespace Word

variable {E : Embedding}

/-- A number filled up with spaces on the left to four characters. -/
def indexText (n : Nat) : String :=
  let digits := (toString n).toList
  String.ofList (List.replicate (4 - digits.length) ' ' ++ digits)

/-- The line of a cell in a dump. -/
def dumpLine (index : Nat) (c : Cell) : String :=
  let shown :=
    match c with
    | .word w => w.name
    | .literal v => v.described
  indexText index ++ ": " ++ shown ++ "\n"

/-- The cells of a word, one to a line. -/
def dump (w : Word E) : String :=
  match w.cells? with
  | none => w.name ++ ": <native>\n"
  | some cells => String.join (cells.toList.mapIdx dumpLine)

end Word

namespace Decompile

/-- What has to be known to decompile: the built-in words that are treated
in their own way, and which words run while compiling. -/
structure Context where
  lit : Option Handle
  exit : Option Handle
  isImmediate : Handle → Bool

/-- Whether a cell calls a given built-in word. -/
def calls (c : Cell) (builtin : Option Handle) : Bool :=
  match c with
  | .word w => builtin == some w
  | .literal _ => false

/-- Append something to the word under construction while interpreting. -/
def bracketed (tokens : List String) : List String :=
  "[" :: (tokens ++ ["]", ","])

/-- Tokens that push the word of a name when they are interpreted. -/
def byName (name : String) : List String :=
  ["word", name, "word_from_name", "drop"]

/-- The tokens of a cell that is executed. -/
def plain (k : Context) : Cell → List String
  | .word w =>
    if k.isImmediate w then bracketed (byName w.name) else [w.name]
  | .literal v => bracketed [v.text]

/-- The tokens of a cell that `lit` reads, with those of the `lit`. -/
def operand (k : Context) : Cell → List String
  | .word w =>
    "lit" ::
      (if k.isImmediate w then bracketed (byName w.name) else [w.name])
  | .literal v => [v.text]

/-- The tokens that compile to the given cells when `;` follows. -/
def tokens (k : Context) : List Cell → List String
  | [] => []
  | [c] => if calls c k.exit then [] else plain k c
  | c :: d :: rest =>
    if calls c k.lit then operand k d ++ tokens k rest
    else plain k c ++ tokens k (d :: rest)

end Decompile

namespace Machine

variable {E : Embedding}

/-- The built-in words that decompiling has to know. -/
def decompileContext (m : Machine E) : Decompile.Context :=
  { lit := m.builtins.find? "lit"
    exit := m.builtins.find? "exit"
    isImmediate := m.dictionary.isImmediate }

/-- The tokens of a definition, none if it is not a thread. -/
def decompile (m : Machine E) (h : Handle) : List String :=
  Decompile.tokens m.decompileContext (m.dictionary.cells h).toList

/-- The source text of a definition. -/
def definitionText (m : Machine E) (h : Handle) : String :=
  match m.dictionary.word? h with
  | none => ""
  | some w =>
    if w.isNative then
      w.name ++ " is a native word.  " ++ w.description
    else
      ": " ++ w.name
        ++ String.join ((m.decompile h).map fun token => " " ++ token)
        ++ " ;" ++ (if w.immediate then " immediate" else "")

/-- The dump of a definition. -/
def dump (m : Machine E) (h : Handle) : String :=
  ((m.dictionary.word? h).map Word.dump).getD ""

end Machine

end Forth
