import Forth.Stack
import Forth.Text.Quoted

/-!
# Causes of failure

Everything that can go wrong while a machine runs, as a cause.  The wording
is in `message` and nowhere else.
-/

namespace Forth

/-- Why a run failed. -/
inductive Fault where
  /-- An item was asked of a stack that has none there. -/
  | underflow (stack : StackKind)
  /-- Something else was found where a word had to be executed or a return
  address had to lie. -/
  | notExecutable (text : String)
  /-- A word could not do its job. -/
  | failed (word message : String)
  /-- There is no word to compile into. -/
  | nothingDefined
  /-- A thread was needed and none is running. -/
  | noThread
  /-- An operand was read beyond the last cell. -/
  | threadExhausted
  /-- A jump would leave its thread. -/
  | invalidBranch (word : String) (target : Int)
  /-- A token was needed and none is left. -/
  | endOfInput
  /-- The outside world refused. -/
  | io (text : String)
deriving DecidableEq, Repr

namespace Fault

/-- What a cause is reported as. -/
def message : Fault → String
  | underflow stack => stack.text ++ " stack underflow"
  | notExecutable text => "can not execute " ++ text
  | failed word message => word ++ ": " ++ message
  | nothingDefined => "no word is under construction"
  | noThread => "no thread is running"
  | threadExhausted => "read past the end of the thread"
  | invalidBranch word target =>
    "branch to cell " ++ toString target ++ " is outside of " ++ word
  | endOfInput => "unexpected end of input"
  | io text => "I/O error: " ++ text

/-- The name of the kind of cause. -/
def kind : Fault → String
  | underflow _ => "StackUnderflow"
  | notExecutable _ => "UnknownCell"
  | failed _ _ => "NativeOperationFailure"
  | nothingDefined => "NothingDefined"
  | noThread => "NoActiveThread"
  | threadExhausted => "ThreadExhausted"
  | invalidBranch _ _ => "InvalidBranch"
  | endOfInput => "EndOfInput"
  | io _ => "Io"

/-- Fields of a cause between braces, after its kind. -/
def withFields (fields : String) : String := " \x7b " ++ fields ++ " \x7d"

/-- A cause with all its parts, for diagnosis. -/
def described (f : Fault) : String :=
  f.kind ++
    match f with
    | underflow .data => "(Data)"
    | underflow .returns => "(Return)"
    | notExecutable text | io text => "(" ++ Text.quoted text ++ ")"
    | failed word message =>
      withFields ("word: " ++ Text.quoted word
        ++ ", message: " ++ Text.quoted message)
    | invalidBranch word target =>
      withFields ("word: " ++ Text.quoted word
        ++ ", target: " ++ toString target)
    | _ => ""

end Fault

end Forth
