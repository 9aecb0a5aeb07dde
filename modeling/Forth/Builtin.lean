/-!
# The built-in words

The vocabulary that every machine starts with, in families.  A family is a
type with one member per word; what a word does is said elsewhere, here are
its name, its description, the signature of what it takes from and leaves on
the data stack, and whether it also runs while compiling.
-/

namespace Forth

/-- What a word is called and how it is described. -/
structure Entry where
  name : String
  description : String
  signature : String
  immediate : Bool
deriving DecidableEq, Repr

/-- An entry of a word that is compiled while compiling. -/
def Entry.normal (name description signature : String) : Entry :=
  ⟨name, description, signature, false⟩

/-- An entry of a word that runs even while compiling. -/
def Entry.immediately (name description signature : String) : Entry :=
  ⟨name, description, signature, true⟩

/-- Words that move values around. -/
inductive StackWord where
  | dup | drop | swap | second | rot | unrot | depth | maxDepth | pick
  | toReturn | fromReturn | dropReturn
deriving DecidableEq, Repr

/-- Words of arithmetic, logic, bits and comparison. -/
inductive MathWord where
  | add | sub | mul | div | divMod
  | and | or | not
  | bitAnd | bitOr | bitXor | bitNot | shiftLeft | shiftRight
  | equal | different | less | lessEqual | greater | greaterEqual
deriving DecidableEq, Repr

/-- Words that make new words. -/
inductive CompileWord where
  | define | endDefine | create | immediate | comma | interpretMode
  | compileMode | comment
deriving DecidableEq, Repr

/-- Words that move through the running thread. -/
inductive ThreadWord where
  | lit | tick | branch | zeroBranch | exit | exec | bye
deriving DecidableEq, Repr

/-- Words about words and variables. -/
inductive NameWord where
  | isImmediate | wordFromName | forthInterpret | store | fetch
deriving DecidableEq, Repr

/-- Words that read the input and write the output. -/
inductive ConsoleWord where
  | word | key | emit | print | printStack | newline | words | see
deriving DecidableEq, Repr

/-- A built-in word. -/
inductive Builtin where
  | stack (w : StackWord)
  | math (w : MathWord)
  | compile (w : CompileWord)
  | thread (w : ThreadWord)
  | name (w : NameWord)
  | console (w : ConsoleWord)
deriving DecidableEq, Repr

namespace StackWord

/-- The entries of the stack words. -/
def entry : StackWord → Entry
  | dup => .normal "dup"
      "Duplicate the top value on the data stack." "value -- value value"
  | drop => .normal "drop"
      "Discard the top value on the data stack." "value -- "
  | swap => .normal "swap"
      "Swap the top 2 values on the data stack." "a b -- b a"
  | second => .normal "over"
      "Make a copy of the second value and place it on top." "a b -- a b a"
  | rot => .normal "rot"
      "Rotate the third value to the top of the stack." "a b c -- b c a"
  | unrot => .normal "-rot"
      "Rotate the top value down to the third place." "a b c -- c a b"
  | depth => .normal "depth"
      "Get the depth of the data stack." " -- depth"
  | maxDepth => .normal "max-depth"
      "Get the maximum depth the data stack has reached." " -- max-depth"
  | pick => .normal "pick"
      "Copy the value at the given depth to the top of the stack."
      "index -- value"
  | toReturn => .normal ">r"
      "Move the top value of the data stack to the return stack." "value -- "
  | fromReturn => .normal "r>"
      "Move a value from the return stack back to the data stack."
      " -- value"
  | dropReturn => .normal "rdrop"
      "Discard a value from the return stack." " -- "

/-- The stack words in the order in which they are registered. -/
def all : List StackWord :=
  [dup, drop, swap, second, rot, unrot, depth, maxDepth, pick, toReturn,
    fromReturn, dropReturn]

end StackWord

namespace MathWord

/-- The entries of the words of arithmetic, logic, bits and comparison. -/
def entry : MathWord → Entry
  | add => .normal "+"
      "Add 2 numbers or join strings together." "a b -- result"
  | sub => .normal "-" "Subtract 2 numbers." "a b -- result"
  | mul => .normal "*" "Multiply 2 numbers." "a b -- result"
  | div => .normal "/"
      "Divide 2 numbers, integers round down." "a b -- result"
  | divMod => .normal "/mod"
      "Divide 2 integers giving remainder and quotient."
      "a b -- remainder quotient"
  | and => .normal "and" "Logically and 2 values." "a b -- bool"
  | or => .normal "or" "Logically or 2 values." "a b -- bool"
  | not => .normal "not" "Logically invert a value." "value -- bool"
  | bitAnd => .normal "&"
      "Bitwise AND two numbers together." "a b -- result"
  | bitOr => .normal "|" "Bitwise OR two numbers together." "a b -- result"
  | bitXor => .normal "^"
      "Bitwise XOR two numbers together." "a b -- result"
  | bitNot => .normal "~" "Bitwise NOT a number." "number -- result"
  | shiftLeft => .normal "<<"
      "Shift a number's bits to the left." "value amount -- result"
  | shiftRight => .normal ">>"
      "Shift a number's bits to the right." "value amount -- result"
  | equal => .normal "=" "Are 2 values equal?" "a b -- bool"
  | different => .normal "<>" "Are 2 values different?" "a b -- bool"
  | less => .normal "<" "Is a less than b?" "a b -- bool"
  | lessEqual => .normal "<=" "Is a less than or equal to b?" "a b -- bool"
  | greater => .normal ">" "Is a greater than b?" "a b -- bool"
  | greaterEqual => .normal ">="
      "Is a greater than or equal to b?" "a b -- bool"

/-- These words in the order in which they are registered. -/
def all : List MathWord :=
  [add, sub, mul, div, divMod, and, or, not, bitAnd, bitOr, bitXor, bitNot,
    shiftLeft, shiftRight, equal, different, less, lessEqual, greater,
    greaterEqual]

end MathWord

namespace CompileWord

/-- The entries of the words that make words. -/
def entry : CompileWord → Entry
  | define => .immediately ":" "The start of a new word definition." " -- "
  | endDefine => .immediately ";" "The end of a new word definition." " -- "
  | create => .normal "create"
      "Create a new empty word and start constructing it." "name -- "
  | immediate => .immediately "immediate"
      "Mark the word under construction as immediate." " -- "
  | comma => .immediately ","
      "Append a value to the word under construction." "value -- "
  | interpretMode => .immediately "[" "Switch to interpreting." " -- "
  | compileMode => .immediately "]" "Switch to compiling." " -- "
  | comment => .immediately "("
      "Skip a comment up to the closing )." " -- "

/-- These words in the order in which they are registered. -/
def all : List CompileWord :=
  [define, endDefine, create, immediate, comma, interpretMode, compileMode,
    comment]

end CompileWord

namespace ThreadWord

/-- The entries of the words that move through a thread. -/
def entry : ThreadWord → Entry
  | lit => .normal "lit"
      "Push the next cell of the thread as a value." " -- value"
  | tick => .normal "'"
      "Push the next cell of the thread without running it." " -- value"
  | branch => .normal "branch"
      "Jump by the offset in the next cell." " -- "
  | zeroBranch => .normal "0branch"
      "Jump by the offset in the next cell if the condition is false."
      "condition -- "
  | exit => .normal "exit" "Return from the running thread." " -- "
  | exec => .normal "exec" "Execute a word reference." "word -- "
  | bye => .normal "bye" "Stop the machine." " -- "

/-- These words in the order in which they are registered. -/
def all : List ThreadWord :=
  [lit, tick, branch, zeroBranch, exit, exec, bye]

end ThreadWord

namespace NameWord

/-- The entries of the words about words and variables. -/
def entry : NameWord → Entry
  | isImmediate => .normal "is_immediate"
      "Check if a word is immediate." "word -- bool"
  | wordFromName => .normal "word_from_name"
      "Translate a name, reporting if it named a word."
      "name -- value is-word"
  | forthInterpret => .normal "forth_interpret"
      "Is the machine interpreting rather than compiling?" " -- bool"
  | store => .normal "!"
      "Store a value in a named variable." "value name -- "
  | fetch => .normal "@"
      "Read the value of a named variable." "name -- value"

/-- These words in the order in which they are registered. -/
def all : List NameWord :=
  [isImmediate, wordFromName, forthInterpret, store, fetch]

end NameWord

namespace ConsoleWord

/-- The entries of the words that read and write. -/
def entry : ConsoleWord → Entry
  | word => .normal "word" "Read the next token from the input." " -- text"
  | key => .normal "key"
      "Read the next character from the input." " -- character"
  | emit => .normal "emit"
      "Write a character code or a string." "character -- "
  | print => .normal "." "Write the top value of the stack." "value -- "
  | printStack => .normal ".s"
      "Write out the data stack without changing it." " -- "
  | newline => .normal "cr" "Write a new line." " -- "
  | words => .normal "words"
      "Write out the current word dictionary." " -- "
  | see => .normal "see" "Write out the source of the next word." " -- "

/-- These words in the order in which they are registered. -/
def all : List ConsoleWord :=
  [word, key, emit, print, printStack, newline, words, see]

end ConsoleWord

namespace Builtin

/-- The entry of a built-in word. -/
def entry : Builtin → Entry
  | stack w => w.entry
  | math w => w.entry
  | compile w => w.entry
  | thread w => w.entry
  | name w => w.entry
  | console w => w.entry

/-- All built-in words in the order in which they are registered. -/
def all : List Builtin :=
  StackWord.all.map stack ++ MathWord.all.map math
    ++ CompileWord.all.map compile ++ ThreadWord.all.map thread
    ++ NameWord.all.map name ++ ConsoleWord.all.map console

/-- No word is left out. -/
theorem mem_all (b : Builtin) : b ∈ all := by
  rcases b with w | w | w | w | w | w <;> cases w <;> decide

end Builtin

end Forth
