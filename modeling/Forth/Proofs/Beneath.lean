import Forth.Proofs.Lockstep
import Forth.Proofs.Settings

/-!
# Values beneath the data stack

A run that ends well has never taken a value that was not there.  So with more
values beneath those on the data stack it does the same: each value that is
taken, or looked at from the top, is the one that was taken or looked at
before, and what lies beneath stays where it is.  Only three words can tell
the difference, those that **plumb** the data stack.

The two machines run in lockstep.  The relation between them is `Raised`: they
are in step and in the same setting, and the second has the given values
beneath those of the first.  Any failure of the first is excused, for with
more values there need not be one.

Main statement: `processSource_beneath`.
-/

namespace Forth

/-- The words that plumb the data stack: they tell how many values there are,
how many there have been, or all of them. -/
def Builtin.plumbs : Builtin → Bool
  | .stack .depth | .stack .maxDepth | .console .printStack => true
  | _ => false

namespace Machine

variable {E : Embedding}

/-- Machines in step and in the same setting, the second with values beneath
those of the first. -/
structure Raised (below : List Value) (m t : Machine E) : Prop
    extends InStep m t where
  dictionary : t.dictionary = m.dictionary
  blame : t.blame = m.blame
  location : t.location = m.location
  input : t.input = m.input
  data : t.data.items = m.data.items ++ below

namespace Raised

variable {below : List Value} {excused : Fault → Prop}

theorem setting : SettingRelation (E := E) (Raised below) where
  interpreting := fun h => h.interpreting
  underConstruction := fun h => h.underConstruction
  memory := fun h => h.memory
  output := fun h => h.output
  watcher := fun h => h.watcher
  outward := fun h _ _ _ _ _ _ _ _ interpreting memory output =>
    { h with interpreting := interpreting, memory := memory, output := output }
  dictionary := fun h => h.dictionary
  builtins := fun h => h.builtins
  location := fun h => h.location
  input := fun h => h.input
  setting := fun h _ _ _ _ _ _ _ _ dictionary under location input =>
    { h with
      dictionary := dictionary
      underConstruction := under
      location := location
      input := input }

/-! ## Values that are moved -/

theorem push (v : Value) :
    Follows (Raised (E := E) below) excused (Act.push v) (Act.push v) := by
  intro m t h
  have items : (t.data.push v).items = (m.data.push v).items ++ below :=
    congrArg (v :: ·) h.data
  exact .ok { h with data := items }

/-- What comes off the first stack comes off the other. -/
theorem pop :
    Follows (Raised (E := E) below) (fun _ => True) Act.pop Act.pop := by
  intro m t h
  rw [Act.pop_apply, Act.pop_apply]
  cases top : m.data.items with
  | nil =>
    -- The first run fails for want of a value, where the other may find one.
    rw [Stack.pop?_of_nil top]
    exact .excused trivial
  | cons v rest =>
    have items := h.data
    rw [top, List.cons_append] at items
    obtain ⟨data, popped, left⟩ := Stack.pop?_of_cons top
    obtain ⟨data', popped', left'⟩ := Stack.pop?_of_cons items
    rw [popped, popped']
    have remain : data'.items = data.items ++ below := by rw [left, left']
    exact .ok { h with data := remain }

/-- What is seen in the first stack is seen in the other. -/
theorem peek (n : Nat) :
    Follows (Raised (E := E) below) (fun _ => True) (Act.peek n)
      (Act.peek n) := by
  intro m t h
  rw [Act.peek_apply, Act.peek_apply]
  unfold Stack.peek?
  cases seen : m.data.items[n]? with
  | none => exact .excused trivial
  | some v =>
    have seen' : t.data.items[n]? = some v := by
      obtain ⟨inside, _⟩ := List.getElem?_eq_some_iff.1 seen
      rw [h.data, List.getElem?_append_left inside, seen]
    rw [seen']
    exact .ok h

theorem congruence :
    Congruence (E := E) (Raised below) fun _ => True :=
  setting.congruence (fun h => h.executingName) push pop peek

/-- A value is picked from above what lies beneath. -/
theorem pick :
    Follows (Raised (E := E) below) (fun _ => True) (StackWord.act .pick)
      (StackWord.act .pick) := by
  refine congruence.popNat.bind fun index m t h => ?_
  have deeper : t.data.depth = m.data.depth + below.length := by
    rw [t.data.depth_eq, m.data.depth_eq, h.data, List.length_append]
  have result (m : Machine E) (x y : Nat → Act E Unit) :
      (Act.depth >>= fun count => if count ≤ index then x count else y count)
        m = (if m.data.depth ≤ index then x m.data.depth
          else y m.data.depth) m := rfl
  rw [result, result]
  by_cases outside : m.data.depth ≤ index
  · rw [if_pos outside]
    exact .excused trivial
  · have outside' : ¬ t.data.depth ≤ index := by omega
    rw [if_neg outside, if_neg outside']
    exact ((peek index).bind push) m t h

/-! ## Both machines in lockstep -/

/-- The same words are running. -/
theorem callTrace {m t : Machine E} (h : Raised below m t) :
    t.callTrace = m.callTrace := by
  unfold Machine.callTrace
  rw [h.returns, h.cursor, h.executing, h.dictionary]

/-- **Nothing but plumbing tells what lies beneath.** -/
theorem lockstep :
    Lockstep (Raised below) (fun _ => True) Builtin.plumbs where
  toWordCongruence := congruence.toWordCongruence
  share := fun h => h.toInStep
  body := fun h => by rw [h.dictionary]
  moves := fun h _ _ _ _ _ _ _ _ _ _ returns cursor base executing finished =>
    { h with
      returns := returns
      cursor := cursor
      base := base
      executing := executing
      finished := finished }
  forgets := fun h => by
    unfold forgetBlame
    rw [h.cursor, h.executing]
    split
    · exact { h with cursor := rfl, executing := rfl, blame := rfl }
    · exact h
  blames := fun h => by
    unfold captureBlame
    rw [h.blame, h.callTrace]
    split
    · exact { h with blame := rfl }
    · exact h
  traces := fun {m t} h c cell => by
    rw [traceStep_eq m, traceStep_eq t]
    exact { h with }
  prying := fun {b} pries reach f g => by
    cases b with
    | stack w =>
      cases w with
      | pick => exact pick.runs
      | depth => cases reach
      | _ => cases pries
    | console w =>
      cases w with
      | key => exact (congruence.nextChar.bind fun _ => push _).runs
      | printStack => cases reach
      | _ => cases pries
    | _ => cases pries
  maxDepth := fun reach => by cases reach

/-- All else is the same. -/
theorem eq {m t : Machine .none} (h : Raised below m t) :
    t = { m with data := t.data, events := t.events } := by
  cases m
  cases t
  obtain ⟨⟨rfl, rfl, rfl, rfl, rfl, rfl, rfl, rfl, rfl, rfl, rfl, rfl, rfl⟩,
    rfl, rfl, rfl, rfl, _⟩ := h
  rfl

end Raised

/-- **The frame rule of the data stack.**  A run that ends well without
plumbing the data stack does the same with more values beneath, and leaves
these there: whatever it changes, save what it tells those who watch, comes out
as without them. -/
theorem processSource_beneath {n : Nat} {path text : String}
    {m a : Machine .none} {below : List Value} {data : Stack Value}
    (avoids : AvoidsAll Builtin.plumbs
      (fun p => processSource p n path text) m)
    (done : processSource Primitives.pure n path text m = .ok () a)
    (raised : data.toList = below ++ m.data.toList) :
    ∃ data' events,
      processSource Primitives.pure n path text { m with data := data } =
        .ok () { a with data := data', events := events } ∧
      data'.toList = below ++ a.data.toList := by
  have items : data.items = m.data.items ++ below.reverse := by
    simpa [Stack.toList] using congrArg List.reverse raised
  have start : Raised below.reverse
      { m with input := .ofText path text }
      { m with data := data, input := .ofText path text } :=
    ⟨⟨rfl, rfl, rfl, rfl, rfl, rfl, rfl, rfl, rfl, rfl, rfl, rfl, rfl⟩,
      rfl, rfl, rfl, rfl, items⟩
  obtain ⟨a', b', related, rfl, ran⟩ :=
    Raised.lockstep.processSource_ok (t := { m with data := data }) start
      (avoids.trans done)
  refine ⟨b'.data, b'.events, ?_, ?_⟩
  · rw [ran, related.eq]
  · show b'.data.toList = below ++ a'.data.toList
    simp [Stack.toList, related.data]

/-- A machine with a 5 on the data stack, and a word that takes what it finds
there from a copy of what lies below that. -/
def havingLess : Machine .none := having "5 : less 1 pick swap - ;"

/-- What it comes to when 2 is taken from the 5. -/
def taken : EStateM.Result (Halt Report) (Machine .none) Unit :=
  processSource Primitives.pure 50 "" "2 less" havingLess

/-- A stack of values with a 7 beneath. -/
def aboveSeven (s : Stack Value) : Stack Value where
  items := s.items ++ [.int 7]
  depth := s.depth + 1
  peak := s.peak + 1
  depth_eq := by rw [s.depth_eq, List.length_append]; rfl

/-- With a 7 beneath the 5, that still leaves 5 and 3 above it. -/
theorem taken_above_seven :
    (leftBy taken).data.toList.zipWith Value.equal [.int 5, .int 3] =
      [true, true] ∧
    ∃ data events,
      processSource Primitives.pure 50 "" "2 less"
          { havingLess with data := aboveSeven havingLess.data } =
        .ok () { leftBy taken with data := data, events := events } ∧
      data.toList = [.int 7] ++ (leftBy taken).data.toList := by
  have facts : isOk taken = true ∧
      isOk (processSource (Primitives.pure.without Builtin.plumbs) 50 ""
        "2 less" havingLess) = true ∧
      (leftBy taken).data.toList.zipWith Value.equal [.int 5, .int 3] =
        [true, true] := by
    decide +kernel
  obtain ⟨done, out, left⟩ := facts
  have avoids : AvoidsAll Builtin.plumbs
      (fun p => processSource p 50 "" "2 less") havingLess :=
    avoidsAll_of_isOk (processSource_cut (Primitives.pure_cut.without _)
      (Nat.le_refl _) _ _) out
  have raised : (aboveSeven havingLess.data).toList =
      [.int 7] ++ havingLess.data.toList := by
    simp [aboveSeven, Stack.toList]
  exact ⟨left, processSource_beneath avoids (eq_ok_of_isOk done) raised⟩

end Machine

end Forth
