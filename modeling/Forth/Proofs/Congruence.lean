import Forth.Proofs.Actions
import Forth.Proofs.Following

/-!
# Relations that words do not see through

Most built-in words only use a few services of the machine: they move values
on the data stack, read the input, write, look words up, compile and set
variables.  A relation between machines is a **congruence** if each of those
services follows itself under it.  Then every such word does
(`Congruence.act`), family by family.

A few words **pry**: they look at the depth of the data stack, deep into it
or at its whole contents, and for these the data stacks have to be the same.
The words that are left out are those that touch the return stack or the
running thread; they are dealt with where the relation between the return
stacks is known.

The **plain** words among these only compute: they move values, set and read
variables and write.  For them a `ValueCongruence` is enough, which asks for
nothing about input and words (`ValueCongruence.act`).  Of the input most
words see tokens only; a relation that keeps these up, and says nothing about
single characters, is a `WordCongruence`, and `WordCongruence.act` is about
the quiet words that do not pry.
-/

namespace Forth

variable {E : Embedding}

/-- The built-in words that use neither the return stack nor the running
thread, nor ask how deep the data stack has ever been. -/
def Builtin.isQuiet : Builtin → Bool
  | .stack .maxDepth | .stack .toReturn | .stack .fromReturn
  | .stack .dropReturn => false
  | .thread _ => false
  | _ => true

/-- The quiet words that look at more than the topmost values and the next
tokens: at how deep the data stack is, at what lies deep in it, at all of it,
or at a single character of the input. -/
def Builtin.pries : Builtin → Bool
  | .stack .depth | .stack .pick | .console .printStack
  | .console .key => true
  | _ => false

/-- The built-in words that only compute: what they see and change is the data
stack, the variables and the output. -/
def Builtin.isPlain : Builtin → Bool
  | .stack .toReturn | .stack .fromReturn | .stack .dropReturn => false
  | .stack _ | .math _ => true
  | .name .store | .name .fetch => true
  | .console .emit | .console .print | .console .printStack
  | .console .newline => true
  | _ => false

/-- A relation between machines with the same variables and the same word to
blame, which the services that move values keep up. -/
structure ValueCongruence (S : Machine E → Machine E → Prop)
    (excused : Fault → Prop) : Prop where
  executingName : ∀ {m t}, S m t → t.executingName = m.executingName
  memory : ∀ {m t}, S m t → t.memory = m.memory
  push : ∀ v, Follows S excused (Act.push v) (Act.push v)
  pop : Follows S excused Act.pop Act.pop
  peek : ∀ n, Follows S excused (Act.peek n) (Act.peek n)
  write : ∀ text, Follows S excused (Act.write text) (Act.write text)
  setVariable : ∀ name v, Follows S excused (Act.setVariable name v)
    (Act.setVariable name v)

/-- A relation between machines that agree on what the quiet built-in words
can see of words and tokens, and that the services used by these words keep
up. -/
structure WordCongruence (S : Machine E → Machine E → Prop)
    (excused : Fault → Prop) : Prop extends ValueCongruence S excused where
  interpreting : ∀ {m t}, S m t → t.interpreting = m.interpreting
  names : ∀ {m t}, S m t → t.dictionary.names = m.dictionary.names
  isImmediate : ∀ {m t}, S m t →
    t.dictionary.isImmediate = m.dictionary.isImmediate
  listing : ∀ {m t}, S m t → t.dictionary.listing = m.dictionary.listing
  definitionText : ∀ {m t}, S m t → t.definitionText = m.definitionText
  builtins : ∀ {m t}, S m t → t.builtins = m.builtins
  tokenText : Follows S excused (Option.map Token.text <$> Act.nextToken?)
    (Option.map Token.text <$> Act.nextToken?)
  comment : Follows S excused (CompileWord.act .comment)
    (CompileWord.act .comment)
  compile : ∀ c, Follows S excused (Act.compile c) (Act.compile c)
  markImmediate : Follows S excused (CompileWord.act .immediate)
    (CompileWord.act .immediate)
  setInterpreting : ∀ b, Follows S excused (Act.setInterpreting b)
    (Act.setInterpreting b)
  createWord : ∀ name, Follows S excused (Act.createWord name)
    (Act.createWord name)
  announce : Follows S excused CompileWord.announce CompileWord.announce

/-- The same with single characters of the input. -/
structure Congruence (S : Machine E → Machine E → Prop)
    (excused : Fault → Prop) : Prop extends WordCongruence S excused where
  nextChar : Follows S excused Act.nextChar? Act.nextChar?

namespace ValueCongruence

variable {S : Machine E → Machine E → Prop} {excused : Fault → Prop}

/-- Failures are blamed on the same word. -/
theorem fail {α : Type} (k : ValueCongruence S excused) (message : String) :
    Follows S excused (Act.fail message : Act E α) (Act.fail message) := by
  refine Follows.get_bind (fun m t h => ?_) fun m => Follows.throw _
  rw [k.executingName h]

/-- Complaints about the type of a value. -/
theorem expected {α : Type} (k : ValueCongruence S excused) (what : String)
    (v : Value) :
    Follows S excused (Act.expected what v : Act E α)
      (Act.expected what v) :=
  k.fail _

/-- Integers from the data stack. -/
theorem popInt (k : ValueCongruence S excused) :
    Follows S excused Act.popInt Act.popInt := by
  refine k.pop.bind fun v => ?_
  cases v with
  | int n => exact Follows.pure _
  | bool b => exact Follows.pure _
  | _ => exact k.expected _ _

/-- Integers that are not negative. -/
theorem popNat (k : ValueCongruence S excused) :
    Follows S excused Act.popNat Act.popNat := by
  refine k.popInt.bind fun n => ?_
  split
  · exact k.fail _
  · exact Follows.pure _

/-- Values for their truth. -/
theorem popTruth (k : ValueCongruence S excused) :
    Follows S excused Act.popTruth Act.popTruth :=
  k.pop.bind fun _ => Follows.pure _

/-- Texts and names of words. -/
theorem popText (k : ValueCongruence S excused) :
    Follows S excused Act.popText Act.popText := by
  refine k.pop.bind fun v => ?_
  cases v with
  | string s => exact Follows.pure _
  | word w => exact Follows.pure _
  | _ => exact k.expected _ _

/-- Words from the data stack. -/
theorem popWord (k : ValueCongruence S excused) :
    Follows S excused Act.popWord Act.popWord := by
  refine k.pop.bind fun v => ?_
  cases v with
  | word w => exact Follows.pure _
  | _ => exact Follows.throw _

/-! ## Family by family -/

/-- Arithmetic on the two values on top. -/
theorem arithmetic (k : ValueCongruence S excused)
    (onInts : Int64 → Int64 → Option Int64)
    (onFloats : Float → Float → Float) :
    Follows S excused (MathWord.arithmetic onInts onFloats)
      (MathWord.arithmetic onInts onFloats) := by
  refine k.pop.bind fun b => k.pop.bind fun a => ?_
  split
  · split
    · exact k.push _
    · exact k.fail _
  · split
    · exact k.push _
    · exact k.fail _

/-- Operations on bits. -/
theorem bitwise (k : ValueCongruence S excused)
    (op : Int64 → Int64 → Option Int64) :
    Follows S excused (MathWord.bitwise op) (MathWord.bitwise op) := by
  refine k.popInt.bind fun b => k.popInt.bind fun a => ?_
  split
  · exact k.push _
  · exact k.fail _

/-- Comparisons of values that have an order. -/
theorem comparison (k : ValueCongruence S excused) (test : Ordering → Bool) :
    Follows S excused (MathWord.comparison test)
      (MathWord.comparison test) := by
  refine k.pop.bind fun b => k.pop.bind fun a => ?_
  split
  · exact k.push _
  · exact k.fail _

/-- Sums, and texts joined. -/
theorem addition (k : ValueCongruence S excused) :
    Follows S excused MathWord.addition MathWord.addition := by
  refine (k.peek 0).bind fun b => (k.peek 1).bind fun a => ?_
  split
  · exact k.pop.bind fun _ => k.pop.bind fun _ => k.push _
  · exact k.arithmetic _ _

/-- Quotients. -/
theorem division (k : ValueCongruence S excused) :
    Follows S excused MathWord.division MathWord.division := by
  refine k.pop.bind fun b => ?_
  split
  · exact k.fail _
  · exact (k.push _).bind fun _ => k.arithmetic _ _

/-- Quotients with what is left over. -/
theorem divisionWithRest (k : ValueCongruence S excused) :
    Follows S excused MathWord.divisionWithRest
      MathWord.divisionWithRest := by
  refine k.popInt.bind fun b => k.popInt.bind fun a => ?_
  split
  · exact k.fail _
  · split
    · exact (k.push _).bind fun _ => k.push _
    · exact k.fail _

/-- Every word of arithmetic, logic, bits and comparison. -/
theorem math (k : ValueCongruence S excused) (w : MathWord) :
    Follows S excused w.act w.act := by
  cases w with
  | add => exact k.addition
  | sub | mul => exact k.arithmetic _ _
  | div => exact k.division
  | divMod => exact k.divisionWithRest
  | and | or =>
    exact k.popTruth.bind fun _ => k.popTruth.bind fun _ => k.push _
  | not => exact k.popTruth.bind fun _ => k.push _
  | bitNot => exact k.popInt.bind fun _ => k.push _
  | bitAnd => exact k.bitwise fun a b => some (a &&& b)
  | bitOr => exact k.bitwise fun a b => some (a ||| b)
  | bitXor => exact k.bitwise fun a b => some (a ^^^ b)
  | shiftLeft | shiftRight => exact k.bitwise _
  | equal | different =>
    exact k.pop.bind fun _ => k.pop.bind fun _ => k.push _
  | less | lessEqual | greater | greaterEqual => exact k.comparison _

/-- Setting and reading variables. -/
theorem remembering (k : ValueCongruence S excused) {w : NameWord}
    (plain : (Builtin.name w).isPlain = true) :
    Follows S excused w.act w.act := by
  cases w with
  | store =>
    exact k.popText.bind fun _ => k.pop.bind fun _ => k.setVariable _ _
  | fetch =>
    have find (name : String) : Follows S excused
        (Act.findVariable name) (Act.findVariable name) := by
      refine Follows.get_bind (fun m t h => ?_) fun _ => Follows.pure _
      rw [k.memory h]
    refine k.popText.bind fun name => (find name).bind fun found => ?_
    cases found with
    | some v => exact k.push _
    | none => exact k.fail _
  | _ => cases plain

/-- A character or a text that is written. -/
theorem emitValue (k : ValueCongruence S excused) :
    Follows S excused ConsoleWord.emitValue ConsoleWord.emitValue := by
  refine k.pop.bind fun v => ?_
  cases v with
  | int n =>
    dsimp only
    split
    · exact k.write _
    · exact k.fail _
  | string s => exact k.write _
  | _ => exact k.fail _

/-- Writing the topmost value, or a new line. -/
theorem writing (k : ValueCongruence S excused) {w : ConsoleWord}
    (plain : (Builtin.console w).isPlain = true)
    (near : (Builtin.console w).pries = false) :
    Follows S excused w.act w.act := by
  cases w with
  | emit => exact k.emitValue
  | print => exact k.pop.bind fun _ => k.write _
  | newline => exact k.write _
  | printStack => cases near
  | _ => cases plain

/-- Writing, if the data stacks are the same. -/
theorem printing (k : ValueCongruence S excused)
    (items : ∀ m t, S m t → t.data.items = m.data.items) {w : ConsoleWord}
    (plain : (Builtin.console w).isPlain = true) :
    Follows S excused w.act w.act := by
  cases w with
  | printStack =>
    refine Follows.get_bind (fun m t h => ?_) fun _ => k.write _
    simp only [Stack.toList, items m t h]
  | emit | print | newline => exact k.writing rfl rfl
  | _ => cases plain

/-- The number of values, if the data stacks are the same. -/
theorem depth (items : ∀ m t, S m t → t.data.items = m.data.items) :
    Follows S excused Act.depth Act.depth := by
  refine Follows.get_bind (fun m t h => ?_) fun _ => Follows.pure _
  rw [m.data.depth_eq, t.data.depth_eq, items m t h]

/-- The stack words that move the topmost values. -/
theorem moving (k : ValueCongruence S excused) {w : StackWord}
    (quiet : (Builtin.stack w).isQuiet = true)
    (near : (Builtin.stack w).pries = false) :
    Follows S excused w.act w.act := by
  cases w with
  | dup | second => exact (k.peek _).bind fun _ => k.push _
  | drop => exact k.pop.bind fun _ => Follows.pure _
  | swap =>
    exact k.pop.bind fun _ => k.pop.bind fun _ =>
      (k.push _).bind fun _ => k.push _
  | rot | unrot =>
    exact k.pop.bind fun _ => k.pop.bind fun _ => k.pop.bind fun _ =>
      (k.push _).bind fun _ => (k.push _).bind fun _ => k.push _
  | depth | pick => cases near
  | maxDepth | toReturn | fromReturn | dropReturn => cases quiet

/-- The stack words that leave the return stack alone. -/
theorem stacking (k : ValueCongruence S excused)
    (items : ∀ m t, S m t → t.data.items = m.data.items) (w : StackWord)
    (quiet : (Builtin.stack w).isQuiet = true) :
    Follows S excused w.act w.act := by
  cases w with
  | depth => exact (depth items).bind fun _ => k.push _
  | pick =>
    refine k.popNat.bind fun index => (depth items).bind fun count => ?_
    split
    · exact k.fail _
    · exact (k.peek _).bind fun _ => k.push _
  | _ => exact k.moving quiet rfl

/-- **Plain words follow themselves under every congruence of values** that
keeps the data stacks the same. -/
theorem act (k : ValueCongruence S excused)
    (data : ∀ m t, S m t → t.data = m.data)
    {pardoned : Halt Fault → Prop}
    (pardon : ∀ f, excused f → pardoned (.failed f))
    (f g : Handle → Run E Unit) {b : Builtin} (plain : b.isPlain = true) :
    Follows S pardoned (b.act f) (b.act g) := by
  have items (m t : Machine E) (h : S m t) : t.data.items = m.data.items := by
    rw [data m t h]
  cases b with
  | stack w =>
    by_cases quiet : (Builtin.stack w).isQuiet = true
    · exact (k.stacking items w quiet).run pardon
    · cases w with
      | maxDepth =>
        refine Follows.run (Follows.get_bind (fun m t h => ?_) ?_) pardon
        · rw [data m t h]
        · exact fun _ => k.push _
      | toReturn | fromReturn | dropReturn => cases plain
      | _ => exact absurd rfl quiet
  | math w => exact (k.math w).run pardon
  | name w => exact (k.remembering plain).run pardon
  | console w => exact (k.printing items plain).run pardon
  | compile w => cases plain
  | thread w => cases plain

end ValueCongruence

namespace WordCongruence

variable {S : Machine E → Machine E → Prop} {excused : Fault → Prop}

/-- The same tokens stand for the same values. -/
theorem translate (k : WordCongruence S excused) {m t : Machine E} (h : S m t) :
    t.dictionary.translate = m.dictionary.translate := by
  funext text
  simp only [Dictionary.translate, Dictionary.lookup, k.names h]

/-- The text of a token that has to be there. -/
theorem nextTokenText (k : WordCongruence S excused) :
    Follows S excused Act.nextTokenText Act.nextTokenText := by
  have mapped : (Act.nextTokenText : Act E String)
      = (Option.map Token.text <$> Act.nextToken?) >>= fun text =>
        text.elim (throw .endOfInput) pure := by
    funext m
    simp only [Act.nextTokenText, Bind.bind, EStateM.bind, Functor.map,
      EStateM.map]
    cases Act.nextToken? m with
    | ok t m => cases t <;> rfl
    | error f m => rfl
  rw [mapped]
  refine k.tokenText.bind fun text => ?_
  cases text with
  | none => exact Follows.throw _
  | some s => exact Follows.pure _

/-- One of the words that the machine was started with. -/
theorem builtin (k : WordCongruence S excused) (name : String) :
    Follows S excused (Act.builtin name) (Act.builtin name) := by
  refine Follows.get_bind (fun m t h => ?_) fun m => ?_
  · rw [k.builtins h]
  · split
    · exact Follows.throw _
    · exact Follows.pure _

/-- Every word that makes words. -/
theorem compiling (k : WordCongruence S excused) (w : CompileWord) :
    Follows S excused w.act w.act := by
  cases w with
  | define =>
    exact k.nextTokenText.bind fun _ =>
      (k.createWord _).bind fun _ => k.setInterpreting _
  | endDefine =>
    exact (k.builtin "exit").bind fun _ => (k.compile _).bind fun _ =>
      (k.setInterpreting _).bind fun _ => k.announce
  | create =>
    exact k.popText.bind fun _ =>
      (k.createWord _).bind fun _ => Follows.pure _
  | immediate => exact k.markImmediate
  | comma => exact k.pop.bind fun _ => k.compile _
  | interpretMode | compileMode => exact k.setInterpreting _
  | comment => exact k.comment

/-- Every word about words and variables. -/
theorem naming (k : WordCongruence S excused) (w : NameWord) :
    Follows S excused w.act w.act := by
  cases w with
  | isImmediate =>
    refine k.popWord.bind fun h => Follows.get_bind (fun m t hmt => ?_) ?_
    · rw [k.isImmediate hmt]
    · exact fun _ => k.push _
  | wordFromName =>
    refine k.popText.bind fun name => Follows.get_bind (fun m t h => ?_) ?_
    · rw [k.translate h]
    · exact fun _ => (k.push _).bind fun _ => k.push _
  | forthInterpret =>
    refine Follows.get_bind (fun m t h => ?_) fun _ => k.push _
    rw [k.interpreting h]
  | store | fetch => exact k.remembering rfl

/-- The source of a word that is written. -/
theorem seeNext (k : WordCongruence S excused) :
    Follows S excused ConsoleWord.seeNext ConsoleWord.seeNext := by
  refine k.nextTokenText.bind fun name => Follows.get_bind
    (fun m t h => ?_) fun m => ?_
  · simp only [Dictionary.lookup, k.names h, k.definitionText h]
  · split
    · exact k.fail _
    · exact k.write _

/-- Every word that reads tokens or writes. -/
theorem conversing (k : WordCongruence S excused) {w : ConsoleWord}
    (near : (Builtin.console w).pries = false) :
    Follows S excused w.act w.act := by
  cases w with
  | word =>
    have mapped : (ConsoleWord.act .word : Act E Unit)
        = (Option.map Token.text <$> Act.nextToken?) >>= fun text =>
          Act.push (.string (text.getD "")) := rfl
    rw [mapped]
    exact k.tokenText.bind fun _ => k.push _
  | emit | print | newline => exact k.writing rfl rfl
  | words =>
    refine Follows.get_bind (fun m t h => ?_) fun _ => k.write _
    rw [k.listing h]
  | see => exact k.seeNext
  | key | printStack => cases near

/-- **Quiet words that do not pry follow themselves under every congruence of
words**, however words are executed on the two sides. -/
theorem act (k : WordCongruence S excused) {pardoned : Halt Fault → Prop}
    (pardon : ∀ f, excused f → pardoned (.failed f))
    (f g : Handle → Run E Unit) {b : Builtin} (quiet : b.isQuiet = true)
    (near : b.pries = false) : Follows S pardoned (b.act f) (b.act g) := by
  cases b with
  | stack w => exact (k.moving quiet near).run pardon
  | math w => exact (k.math w).run pardon
  | compile w => exact (k.compiling w).run pardon
  | thread w => cases quiet
  | name w => exact (k.naming w).run pardon
  | console w => exact (k.conversing near).run pardon

end WordCongruence

namespace Congruence

variable {S : Machine E → Machine E → Prop} {excused : Fault → Prop}

/-- **Quiet words follow themselves under every congruence** that keeps the
data stacks the same, however words are executed on the two sides. -/
theorem act (k : Congruence S excused)
    (items : ∀ m t, S m t → t.data.items = m.data.items)
    (pardoned : Halt Fault → Prop)
    (pardon : ∀ f, excused f → pardoned (.failed f))
    (f g : Handle → Run E Unit) {b : Builtin} (quiet : b.isQuiet = true) :
    Follows S pardoned (b.act f) (b.act g) := by
  cases near : b.pries with
  | false => exact k.toWordCongruence.act pardon f g quiet near
  | true =>
    cases b with
    | stack w => exact (k.stacking items w quiet).run pardon
    | console w =>
      cases w with
      | key =>
        exact Follows.run (k.nextChar.bind fun _ => k.push _) pardon
      | printStack => exact Follows.run (k.printing items rfl) pardon
      | _ => cases near
    | _ => cases near

end Congruence

end Forth
