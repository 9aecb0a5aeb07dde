import Forth.Machine.Run

/-!
# What the words that move through a thread do

These words see the thread that calls them: they read its next cell as an
operand, move its cursor, or end it.  `exec` executes a word, and is the only
built-in that needs to be told how to do that.
-/

namespace Forth.ThreadWord

open Act

variable {E : Embedding}

/-- Read the offset of a branch from the thread. -/
def fetchOffset : Act E Int64 := do
  match ← fetchOperand with
  | .literal (.int offset) => return offset
  | c => fail ("branch offset must be an integer, found " ++ c.text)

/-- Push the next cell of the thread. -/
def pushOperand : Act E Unit := do push (← fetchOperand).toValue

/-- Read an offset and jump by it. -/
def jumpAlways : Act E Unit := do jump (← fetchOffset)

/-- Read an offset and jump by it if a value is false. -/
def jumpUnless : Act E Unit := do
  let condition ← popTruth
  let offset ← fetchOffset
  if condition then return else jump offset

/-- What a word of this family does, given how words are executed. -/
def act (call : Handle → Run E Unit) : ThreadWord → Run E Unit
  | lit | tick => pushOperand.run
  | branch => jumpAlways.run
  | zeroBranch => jumpUnless.run
  | exit => exitThread.run
  | exec => do call (← popWord.run)
  | bye => modify Machine.finish

end Forth.ThreadWord
