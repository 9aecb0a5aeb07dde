import Forth.Proofs.Moments
import Forth.Proofs.Threaded
import Forth.Proofs.Tracking

/-!
# After a failure it goes on at the next line

An outer interpreter that passes over failures reports each of them with the
place of the token read last, gives up the rest of the line that the cursor is
on, and goes on.  The two lines are the same (`HasRead`), whatever the failing
attempt has read ahead, so the next token is the first one of a later line.

That rests on an attempt having read a token at all, since otherwise the place
would be an old one.  The rule begins with a token.  The thread does so as
well: before its cell 1 nothing can fail, and if there is no token it ends
(`hasRead_of_failed`).

Main statement: `failures_resume_next_line`.  All reports of a run come from
failures for which this is so (`Outer.Recovers`).
-/

namespace Forth.Machine

open Relation

/-- A failure that is passed over: the machine from which the attempt was
made, what the fault was, and the machine that the attempt left. -/
structure Mishap where
  start : Machine .none
  fault : Fault
  left : Machine .none

/-- What is reported. -/
def Mishap.report (x : Mishap) : Report := (x.left.recover x.fault).1

/-- The machine with which it goes on. -/
def Mishap.resumed (x : Mishap) : Machine .none :=
  leftBy (handleError .resume x.fault x.left)

/-- Where an outer interpreter that goes on from a machine asks for a token:
the rule does so at once, and the thread at its cell 1, before it has read
anything. -/
inductive Outer.Asks : Outer → Machine .none → Machine .none → Prop
  | rule (m : Machine .none) : Asks .rule m m
  | thread {m u : Machine .none} (reach : Reaches Primitives.pure m.booted u)
      (unread : u.input = m.input) (place : u.cursor = some (cell 1)) :
      Asks .thread m u

/-- An outer interpreter that asks for a token gets one and interprets it,
with some values on the data stack. -/
inductive Outer.Takes :
    Outer → Machine .none → Token → List Value → Prop
  /-- The rule does so in the machine that has read the token. -/
  | rule {u v : Machine .none} {token : Token} {items : List Value}
      (read : u.nextToken = (some token, v)) (mode : v.interpreting = true)
      (data : v.data.items = items) : Takes .rule u token items
  /-- The thread executes a word from its cell 14. -/
  | executed {u z : Machine .none} {token : Token} {items : List Value}
      {w : Handle} (meant : u.dictionary.translate token.text = .word w)
      (reach : Reaches Primitives.pure u z)
      (place : z.cursor = some (cell 14)) (mode : z.interpreting = true)
      (data : z.data.items = .word w :: items) : Takes .thread u token items
  /-- Another value it leaves on the data stack, and asks again. -/
  | pushed {u z : Machine .none} {token : Token} {items : List Value}
      (other : (u.dictionary.translate token.text).isWord = false)
      (reach : Reaches Primitives.pure u z)
      (place : z.cursor = some (cell 1)) (mode : z.interpreting = true)
      (data : z.data.items =
        u.dictionary.translate token.text :: items) :
      Takes .thread u token items

/-- An outer interpreter goes on from a machine with some tokens and with a
data stack: these tokens are left to be read, and the first of them, if there
is one, is the next that is read, and is interpreted. -/
structure Outer.Resumes (outer : Outer) (tokens : List Token)
    (values : Stack Value) (t : Machine .none) : Prop where
  going : t.finished = false
  interpreting : t.interpreting = true
  data : t.data = values
  remaining : t.input.remaining = tokens
  next : ∃ u, outer.Asks t u ∧ u.nextToken.1 = tokens.head? ∧
    ∀ token ∈ tokens.head?, outer.Takes u token values.items

/-- A failure of an outer interpreter that was started from a machine, and
that goes on with the tokens of later lines than the one in the report. -/
structure Outer.Recovers (outer : Outer) (m : Machine .none) (x : Mishap) :
    Prop where
  rounds : ReflTransGen (outer.Round .resume) m x.start
  breaks : outer.Breaks x.start x.fault x.left
  resumes : ∃ place, x.report.location = some place ∧
    outer.Resumes
      (m.input.remaining.filter fun t => place.line < t.location.line)
      x.left.data x.resumed

/-! ## The machine with which it goes on -/

theorem Mishap.resumed_eq (x : Mishap) :
    x.resumed = { x.left with
      returns := x.left.returns.clear
      cursor := none
      base := 0
      executing := none
      interpreting := true
      blame := none
      events := x.resumed.events
      reports := x.report :: x.left.reports
      input := x.left.input.discardLine } := by
  unfold resumed handleError report recover leftBy
  dsimp only
  rw [record_eq]
  rfl

theorem Mishap.stocked {x : Mishap} (stocked : Stocked x.left) :
    Stocked x.resumed :=
  stocked.of_grows (handleError_grows .resume x.fault x.left)

/-- An outer interpreter between two attempts, of whose tokens the last ones
are left. -/
structure Pauses (tokens : List Token) (m : Machine .none) : Prop where
  stocked : Stocked m
  orderly : m.input.Orderly
  suffix : m.input.remaining <:+ tokens

variable {tokens : List Token} {m t u : Machine .none} {n : Nat} {f : Fault}

/-- After a token that was processed. -/
theorem HasRead.pauses (h : HasRead tokens m) (stocked : Stocked m) :
    Pauses tokens m where
  stocked := stocked
  orderly := h.poised.orderly
  suffix := by
    obtain ⟨before, token, all, _⟩ := h.upTo
    exact ⟨before ++ [token], by rw [all, List.append_assoc]; rfl⟩

/-! ## The thread -/

/-- From its cell 1 the thread reads a token and interprets it. -/
theorem At.takes {frames : List Frame} {token : Token} {v : Machine .none}
    (stocked : Stocked m) (mode : m.interpreting = true)
    (h : At 1 m u frames) (read : m.nextToken = (some token, v)) :
    Outer.thread.Takes u token m.data.items := by
  obtain ⟨t₁, turn₁, h₁⟩ := At.word h stocked
  have after : v = m.nextToken.2 := by rw [read]
  rw [read] at h₁
  replace h₁ : At 2 (v.holding (.string token.text :: v.data.items)) t₁
    frames := h₁
  have stocked₁ : Stocked v := (nextToken_control read).2 stocked
  have same : v.interpreting = true ∧ v.data = m.data ∧
      v.dictionary = u.dictionary := by
    rw [after, nextToken_eq, h.dictionary]
    exact ⟨mode, rfl, rfl⟩
  obtain ⟨mode', data, dictionary⟩ := same
  obtain ⟨t₂, reach₂, h₂⟩ := At.hasToken stocked₁ h₁
  replace h₂ := (if_neg (text_ne_of_read read)) ▸ h₂
  obtain ⟨t₃, reach₃, h₃⟩ := At.translates stocked₁ h₂
  have reach := ReflTransGen.head turn₁ (reach₂.trans reach₃)
  rw [← data]
  cases isWord : (v.dictionary.translate token.text).isWord with
  | true =>
    obtain ⟨w, meant⟩ := exists_word_of_isWord isWord
    rw [isWord, meant] at h₃
    obtain ⟨t₄, reach₄, h₄⟩ := At.chooses stocked₁ h₃
    rw [if_pos (.inl mode')] at h₄
    exact .executed (dictionary ▸ meant) (reach.trans reach₄) h₄.inThread
      (h₄.interpreting.trans mode') h₄.data
  | false =>
    rw [isWord] at h₃
    obtain ⟨t₄, reach₄, h₄⟩ := At.keeps stocked₁ h₃
    rw [if_pos mode'] at h₄
    obtain ⟨t₅, turn₅, h₅⟩ := At.goesTo (j := 1) h₄
      (stocked₁.of_same rfl rfl rfl) rfl rfl rfl
    exact .pushed (dictionary ▸ isWord) ((reach.trans reach₄).tail turn₅)
      h₅.inThread (h₅.interpreting.trans mode') (dictionary ▸ h₅.data)

/-- An attempt that fails is a run of the thread that fails, and leaves the
input where the run left it. -/
theorem loop_of_execute_failed {p : Primitives .none} (stocked : Stocked m)
    (idle : m.cursor = none)
    (failed : execute p n initHandle m = .error (.failed f) t) :
    ∃ u, loop p (n - 1) m.booted = .error (.failed f) u ∧
      t.input = u.input ∧ t.location = u.location := by
  cases n with
  | zero => cases failed
  | succ n =>
    rw [execute_init stocked idle] at failed
    unfold startRun at failed
    dsimp only at failed
    split at failed
    · cases failed
    · next f' u ran =>
      cases failed
      refine ⟨u, ran, ?_⟩
      rw [captureBlame_eq]
      exact ⟨rfl, rfl⟩
    · cases failed

/-- A run of the thread that fails does so behind its cell 1, where it has
read a token. -/
theorem exists_token_of_loop_failed {p : Primitives .none}
    (less : p.Cut Primitives.pure) (stocked : Stocked m)
    (ran : loop p n m.booted = .error (.failed f) t) :
    ∃ token v, m.asked = (some token, v) ∧
      ∃ x k, At 2 (v.holding (.string token.text :: v.data.items)) x
          (waiting ++ m.returns.items) ∧
        loop p k x = .error (.failed f) t := by
  rcases read : m.asked with ⟨_ | token, v⟩
  · -- With no token left the thread ends.
    obtain ⟨x, reach, halted, _⟩ := reaches_end stocked (by rw [read])
    obtain ⟨k, late⟩ := loop_failed_of_reaches less Primitives.pure_cut
      reach ran
    cases k with
    | zero => cases late
    | succ k =>
      rw [loop_of_none _ _ halted] at late
      cases late
  · obtain ⟨x, reach, _, h⟩ := reaches_read stocked
    rw [read] at h
    obtain ⟨k, rest⟩ := loop_failed_of_reaches less Primitives.pure_cut
      reach ran
    exact ⟨token, v, rfl, x, k, h, rest⟩

/-- After a failing attempt the tokens of later lines are left. -/
theorem HasRead.resumes (outer : Outer) {x : Mishap}
    (h : HasRead tokens x.left) (stocked : Stocked x.left)
    (going : x.left.finished = false)
    (ordered : tokens.Pairwise Token.NotAfter) :
    Pauses tokens x.resumed ∧ ∃ place, x.report.location = some place ∧
      outer.Resumes (tokens.filter fun t => place.line < t.location.line)
        x.left.data x.resumed := by
  obtain ⟨place, located, orderly, remaining⟩ := h.discardLine ordered
  have unfinished : x.resumed.finished = false := by
    rw [x.resumed_eq]
    exact going
  have mode : x.resumed.interpreting = true := by rw [x.resumed_eq]
  have data : x.resumed.data = x.left.data := by rw [x.resumed_eq]
  have input : x.resumed.input = x.left.input.discardLine := by
    rw [x.resumed_eq]
  have stocked' : Stocked x.resumed := Mishap.stocked stocked
  rw [← input] at orderly remaining
  have head : x.resumed.nextToken.1 =
      (tokens.filter fun t => place.line < t.location.line).head? := by
    rw [← remaining, Source.head?_remaining, nextToken_fst]
  refine ⟨⟨stocked', orderly, ?_⟩, place, located, unfinished, mode, data,
    remaining, ?_⟩
  · rw [remaining]
    exact filter_line_suffix ordered _
  · cases outer with
    | rule =>
      refine ⟨_, .rule _, head, fun token mem => ?_⟩
      have read : x.resumed.nextToken =
        (some token, x.resumed.nextToken.2) :=
        Prod.ext (head.trans mem) rfl
      refine .rule read ?_ ?_
      · rw [nextToken_eq]
        exact mode
      · rw [nextToken_eq]
        exact congrArg Stack.items data
    | thread =>
      obtain ⟨u, reach, _, atWord⟩ := reaches_word stocked'
      have same : { x.resumed with interpreting := true } = x.resumed := by
        rw [← mode]
      rw [same] at atWord
      obtain ⟨first, _⟩ := atWord.toAlike.nextToken
      refine ⟨u, .thread reach atWord.input atWord.inThread,
        first.trans head, fun token mem => ?_⟩
      have read : x.resumed.nextToken =
        (some token, x.resumed.nextToken.2) :=
        Prod.ext (head.trans mem) rfl
      rw [← data]
      exact atWord.takes stocked' mode read

/-! ## Attempts -/

/-- How an attempt of an outer interpreter ends that started between two
others: it adds no report, and if it fails, it has read a token. -/
def Outer.Fares (outer : Outer) (tokens : List Token) (x : Machine .none) :
    EStateM.Result (Halt Fault) (Machine .none) Unit → Prop
  | .ok () t => t.reports = x.reports ∧
      (outer = .rule → Consumes Primitives.pure x t ∧ Pauses tokens t)
  | .error .starved t => t.reports = x.reports
  | .error (.failed f) t => t.reports = x.reports ∧ outer.Breaks x f t ∧
      Stocked t ∧ HasRead tokens t

/-- What a run has reported on top of earlier reports: failures after which it
goes on at the next line, the latest first. -/
def Outer.Reported (outer : Outer) (m : Machine .none) (before : List Report)
    (t : Machine .none) : Prop :=
  ∃ mishaps : List Mishap, t.reports = mishaps.map Mishap.report ++ before ∧
    ∀ x ∈ mishaps, outer.Recovers m x

theorem Outer.Reported.nothing {outer : Outer} {before : List Report}
    (same : t.reports = before) : outer.Reported m before t :=
  ⟨[], same, List.forall_mem_nil _⟩

/-- After one more failure. -/
theorem Outer.Reported.after {outer : Outer} {x : Mishap}
    (recovers : outer.Recovers m x)
    (h : outer.Reported m x.resumed.reports t) :
    outer.Reported m x.left.reports t := by
  obtain ⟨mishaps, reports, all⟩ := h
  refine ⟨mishaps ++ [x], ?_, fun y mem => ?_⟩
  · rw [reports, x.resumed_eq]
    simp
  · rcases List.mem_append.mp mem with earlier | last
    · exact all y earlier
    · rw [List.mem_singleton.mp last]
      exact recovers

/-- An attempt that has failed is followed by another. -/
theorem Outer.Fares.recovers {outer : Outer} {x t : Machine .none}
    (rounds : ReflTransGen (outer.Round .resume) m x)
    (fares : outer.Fares m.input.remaining x (.error (.failed f) t)) :
    outer.Recovers m ⟨x, f, t⟩ ∧
      Pauses m.input.remaining (Mishap.resumed ⟨x, f, t⟩) ∧
      ReflTransGen (outer.Round .resume) m (Mishap.resumed ⟨x, f, t⟩) := by
  obtain ⟨_, breaks, stocked, h⟩ := fares
  obtain ⟨pauses, resumes⟩ := HasRead.resumes outer (x := ⟨x, f, t⟩) h
    stocked breaks.going m.input.remaining_pairwise
  exact ⟨⟨rounds, breaks, resumes⟩, pauses,
    rounds.tail (.resumed breaks rfl)⟩

end Forth.Machine
