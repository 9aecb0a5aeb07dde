import Forth.Proofs.Moves
import Mathlib.Tactic.ByContra

/-!
# When a run is over

The end of a run is told from the depth of the return stack: a thread that
exits at the depth which the run began with takes the run to its end.  As
long as every call is made at that depth or above it, the frame of a call is
still there whenever a thread exits above it, and so every call comes back.

A word may also take back what was parked before its run began.  Then the
return stack is lower than the base, and a thread that is called from there
has its frame at or below the base: when it exits the run is over, and the
frame stays.  `returns_iff_level` says that this is the only way: the calls
come back *exactly* when all of them are made at the base or above it, and
exactly then nothing but parked values is on the return stack afterwards.
`taken_back_frame_stays` is the way it goes wrong.

The proof follows one frame.  `frame_step` says what a turn does to a call
that waits on the return stack, `frame_run` what a row of turns does to it.
-/

namespace Forth

/-- Whether a frame is a parked value. -/
def Frame.isParked : Frame → Bool
  | .call _ => false
  | .value _ => true

namespace Machine

open Relation

/-- Only parked values, and no call that waits. -/
def OnlyParked (frames : List Frame) : Prop :=
  ∀ c, Frame.call c ∉ frames

theorem all_isParked_iff (frames : List Frame) :
    frames.all Frame.isParked = true ↔ OnlyParked frames := by
  rw [List.all_eq_true]
  constructor
  · intro parked c mem
    cases parked _ mem
  · intro parked f mem
    cases f with
    | call c => exact absurd mem (parked c)
    | value v => rfl

instance (frames : List Frame) : Decidable (OnlyParked frames) :=
  decidable_of_iff _ (all_isParked_iff frames)

/-- Executing a word with no thread running starts a run, which begins in the
machine `entered`.  The word is a thread, or it is `exec` and finds such a
word on the data stack. -/
inductive Starts : Machine .none → Handle → Machine .none → Prop
  | thread {m : Machine .none} {w : Handle} {cells : Array Cell}
      (body : m.dictionary.body w = .thread cells) :
      Starts m w { m.forgetBlame with
        base := m.forgetBlame.returns.depth
        cursor := some (.start w) }
  | exec {m u entered : Machine .none} {w v : Handle}
      (body : m.dictionary.body w = .builtin (.thread .exec))
      (popped : Act.popWord { m.forgetBlame with executing := some w } =
        .ok v u)
      (starts : Starts u v entered) : Starts m w entered

/-- Processing a token starts a run. -/
def Begins (token : Token) (m entered : Machine .none) : Prop :=
  ∃ w, m.dictionary.translate token.text = .word w ∧
    (m.interpreting ∨ m.dictionary.isImmediate w) ∧ Starts m w entered

/-- A turn calls a thread from the cell at `d`. -/
structure Calls (x y : Machine .none) (d : Cursor) : Prop where
  turn : Turn Primitives.pure x y
  at_cell : x.cursor = some d
  entered : ∃ w, y.cursor = some (.start w)
  frame : y.returns.items =
    .call ⟨d.word, d.index + 1⟩ :: x.returns.items

/-- The thread that is called comes back to the cell after the call, with the
return stack as it was. -/
def ComesBack (x y : Machine .none) (d : Cursor) : Prop :=
  ∃ z, Reaches Primitives.pure y z ∧
    z.cursor = some ⟨d.word, d.index + 1⟩ ∧
    z.returns.items = x.returns.items

/-- Every call in a run comes back. -/
def AllComeBack (entered : Machine .none) : Prop :=
  ∀ x y d, Reaches Primitives.pure entered x → Calls x y d → ComesBack x y d

/-- No call in a run is made from below the depth that the run began with. -/
def StaysLevel (entered : Machine .none) : Prop :=
  ∀ x y d, Reaches Primitives.pure entered x → Calls x y d →
    entered.returns.depth ≤ x.returns.depth

/-! ## Runs -/

/-- A machine that was told to stop stays so. -/
theorem Reaches.unfinished {m t : Machine .none}
    (reach : Reaches Primitives.pure m t) (h : t.finished = false) :
    m.finished = false := by
  induction reach with
  | refl => exact h
  | tail _ turn ih =>
    obtain ⟨n, c, running, _⟩ := id turn
    apply ih
    refine Bool.eq_false_iff.2 fun stopped => ?_
    have stays := (turn_move running turn).finished stopped
    rw [stays] at h
    cases h

/-- There is no turn from a machine in which no thread is running. -/
theorem Reaches.eq_of_over {m t : Machine .none}
    (reach : Reaches Primitives.pure m t) (halted : m.cursor = none) :
    t = m := by
  rcases reach.cases_head with same | ⟨_, ⟨n, c, running, _⟩, _⟩
  · exact same.symm
  · rw [halted] at running
    cases running

/-- The end of a run lies ahead of every machine in the run. -/
theorem Reaches.ahead {m t final : Machine .none}
    (reach : Reaches Primitives.pure m t)
    (ends : Reaches Primitives.pure m final) (halted : final.cursor = none) :
    Reaches Primitives.pure t final := by
  have unique : Relator.RightUnique (Turn Primitives.pure) :=
    fun _ _ _ => turn_unique Primitives.pure_cut
  rcases ReflTransGen.total_of_right_unique unique reach ends with h | h
  · exact h
  · rw [Reaches.eq_of_over h halted]

/-- A run that is over has come down to its base. -/
theorem Reaches.at_base {m final : Machine .none}
    (reach : Reaches Primitives.pure m final) (running : m.cursor ≠ none)
    (halted : final.cursor = none) (unfinished : final.finished = false) :
    final.returns.items.length ≤ m.base := by
  rcases reach.cases_tail with same | ⟨x, before, turn⟩
  · exact absurd (same ▸ halted) running
  · obtain ⟨n, c, hc, _⟩ := id turn
    have base := Reaches.base_eq before
    have none_some {e : Cursor} (h : final.cursor = some e) : False := by
      rw [halted] at h
      cases h
    cases (turn_move hc turn).move with
    | halted atBase _ frames =>
      rw [frames, ← base]
      exact atBase
    | bye _ stopped =>
      rw [unfinished] at stopped
      cases stopped
    | stay _ h _ => exact (none_some h).elim
    | park _ h _ => exact (none_some h).elim
    | unpark _ h _ => exact (none_some h).elim
    | call _ h _ => exact (none_some h).elim
    | back _ _ h _ => exact (none_some h).elim

/-! ## The way of one frame -/

/-- What lies at the bottom of a list does so when one more is put on top. -/
theorem suffix_of_cons {α : Type} {a b : α} {rest xs : List α} (h : a ≠ b)
    (suffix : (a :: rest) <:+ (b :: xs)) : (a :: rest) <:+ xs := by
  rcases List.suffix_cons_iff.1 suffix with same | below
  · exact absurd (List.cons.inj same).1 h
  · exact below

/-- **A turn and a call that waits.**  Either the call goes on waiting, and
the run is over only if its frame lies below the base; or the turn goes back
to it, and then its frame lies above the base. -/
theorem frame_step {x y : Machine .none} {c : Cursor} {rest : List Frame}
    (turn : Turn Primitives.pure x y) (unfinished : y.finished = false)
    (waits : (.call c :: rest) <:+ x.returns.items) :
    ((.call c :: rest) <:+ y.returns.items ∧
      (y.cursor = none → rest.length < x.base)) ∨
    (y.cursor = some c ∧ y.returns.items = rest ∧ x.base ≤ rest.length) := by
  obtain ⟨n, d, running, _⟩ := id turn
  have some_none {e : Cursor} (h : y.cursor = some e) :
      y.cursor = none → rest.length < x.base := by
    intro none
    rw [h] at none
    cases none
  cases (turn_move running turn).move with
  | stay e h frames => exact .inl ⟨frames ▸ waits, some_none h⟩
  | park v h frames =>
    left
    rw [frames]
    exact ⟨waits.trans (List.suffix_cons _ _), some_none h⟩
  | unpark v h frames =>
    left
    rw [frames] at waits
    exact ⟨suffix_of_cons (by simp) waits, some_none h⟩
  | call w h frames =>
    left
    rw [frames]
    exact ⟨waits.trans (List.suffix_cons _ _), some_none h⟩
  | back caller above h frames =>
    rw [frames] at waits above
    rcases List.suffix_cons_iff.1 waits with same | below
    · right
      obtain ⟨rfl, rfl⟩ : c = caller ∧ rest = y.returns.items := by
        simpa using same
      simp only [List.length_cons] at above
      exact ⟨h, rfl, by omega⟩
    · exact .inl ⟨below, some_none h⟩
  | halted atBase h frames =>
    left
    rw [frames]
    refine ⟨waits, fun _ => ?_⟩
    have length := waits.length_le
    simp only [List.length_cons] at length
    omega
  | bye _ stopped =>
    rw [unfinished] at stopped
    cases stopped

/-- **A row of turns and a call that waits.**  Either some turn has gone back
to it, or it is waiting still. -/
theorem frame_run {y t : Machine .none} {c : Cursor} {rest : List Frame}
    (reach : Reaches Primitives.pure y t) (running : y.cursor ≠ none)
    (unfinished : t.finished = false)
    (waits : (.call c :: rest) <:+ y.returns.items) :
    (∃ z, Reaches Primitives.pure y z ∧ z.cursor = some c ∧
      z.returns.items = rest ∧ y.base ≤ rest.length) ∨
    ((.call c :: rest) <:+ t.returns.items ∧
      (t.cursor = none → rest.length < y.base)) := by
  induction reach with
  | refl => exact .inr ⟨waits, fun none => absurd none running⟩
  | @tail x t before turn ih =>
    have unfinished' := Reaches.unfinished (.single turn) unfinished
    rcases ih unfinished' with back | ⟨waits', _⟩
    · exact .inl back
    · rw [← Reaches.base_eq before]
      rcases frame_step turn unfinished waits' with still | ⟨h, frames, above⟩
      · exact .inr still
      · exact .inl ⟨t, before.tail turn, h, frames, above⟩

/-! ## Calls in a run -/

section Run

variable {entered final x y : Machine .none} {d : Cursor}

/-- The caller waits on top of the return stack. -/
theorem Calls.waits (call : Calls x y d) :
    (.call ⟨d.word, d.index + 1⟩ :: x.returns.items) <:+
      y.returns.items :=
  call.frame ▸ List.suffix_refl _

/-- A call from the base or above comes back before the run is over. -/
theorem Calls.comesBack (call : Calls x y d)
    (ends : Reaches Primitives.pure y final) (halted : final.cursor = none)
    (unfinished : final.finished = false)
    (level : y.base ≤ x.returns.items.length) : ComesBack x y d := by
  obtain ⟨w, running⟩ := call.entered
  rcases frame_run ends (by simp [running]) unfinished call.waits with
    ⟨z, reach, back, frames, _⟩ | ⟨_, below⟩
  · exact ⟨z, reach, back, frames⟩
  · have low := below halted
    omega

/-- A call from below the base is still waiting when the run is over. -/
theorem Calls.waits_of_low (call : Calls x y d) {t : Machine .none}
    (ends : Reaches Primitives.pure y t) (unfinished : t.finished = false)
    (low : x.returns.items.length < y.base) :
    (.call ⟨d.word, d.index + 1⟩ :: x.returns.items) <:+
      t.returns.items := by
  obtain ⟨w, running⟩ := call.entered
  rcases frame_run ends (by simp [running]) unfinished call.waits with
    ⟨_, _, _, _, above⟩ | ⟨still, _⟩
  · omega
  · exact still

/-- A call from below the base never comes back. -/
theorem Calls.not_comesBack (call : Calls x y d)
    (ends : Reaches Primitives.pure y final) (halted : final.cursor = none)
    (unfinished : final.finished = false)
    (low : x.returns.items.length < y.base) : ¬ ComesBack x y d := by
  rintro ⟨z, reach, _, frames⟩
  have unfinished' := Reaches.unfinished (Reaches.ahead reach ends halted)
    unfinished
  have still := call.waits_of_low reach unfinished' low
  have length := still.length_le
  rw [frames] at length
  simp only [List.length_cons] at length
  omega

/-- Every call that waits has its frame above a certain depth. -/
def Guarded (depth : Nat) (frames : List Frame) : Prop :=
  ∀ c rest, (.call c :: rest) <:+ frames → depth ≤ rest.length

/-- A turn keeps the calls that wait above the base, if it makes no call from
below it. -/
theorem guarded_step {depth : Nat} (turn : Turn Primitives.pure x y)
    (unfinished : y.finished = false)
    (level : ∀ {d}, Calls x y d → depth ≤ x.returns.items.length)
    (guarded : Guarded depth x.returns.items) :
    Guarded depth y.returns.items := by
  obtain ⟨n, d, running, _⟩ := id turn
  intro c rest waits
  cases (turn_move running turn).move with
  | stay e h frames => exact guarded c rest (frames ▸ waits)
  | park v h frames =>
    rw [frames] at waits
    exact guarded c rest (suffix_of_cons (by simp) waits)
  | unpark v h frames =>
    apply guarded c rest
    rw [frames]
    exact waits.trans (List.suffix_cons _ _)
  | call w h frames =>
    have called := level ⟨turn, running, ⟨w, h⟩, frames⟩
    rw [frames] at waits
    rcases List.suffix_cons_iff.1 waits with same | below
    · rw [(List.cons.inj same).2]
      exact called
    · exact guarded c rest below
  | back caller above h frames =>
    apply guarded c rest
    rw [frames]
    exact waits.trans (List.suffix_cons _ _)
  | halted atBase h frames => exact guarded c rest (frames ▸ waits)
  | bye _ stopped =>
    rw [unfinished] at stopped
    cases stopped

/-- A run without calls from below the base keeps the calls that wait above
it. -/
theorem guarded_run {depth : Nat} (reach : Reaches Primitives.pure entered y)
    (unfinished : y.finished = false)
    (level : ∀ {x t d}, Reaches Primitives.pure entered x → Calls x t d →
      depth ≤ x.returns.items.length)
    (guarded : Guarded depth entered.returns.items) :
    Guarded depth y.returns.items := by
  induction reach with
  | refl => exact guarded
  | tail before turn ih =>
    have unfinished' := Reaches.unfinished (.single turn) unfinished
    exact guarded_step turn unfinished (level before) (ih unfinished')

/-- Frames that are guarded by their own depth are parked values. -/
theorem Guarded.onlyParked {depth : Nat} {frames : List Frame}
    (guarded : Guarded depth frames) (low : frames.length ≤ depth) :
    OnlyParked frames := by
  intro c mem
  obtain ⟨above, rest, split⟩ := List.append_of_mem mem
  have waits : (.call c :: rest) <:+ frames := ⟨above, split.symm⟩
  have high := guarded c rest waits
  have length := waits.length_le
  simp only [List.length_cons] at length
  omega

end Run

/-! ## Runs that are started from the top level -/

/-- Taking a word from the data stack leaves the control state alone. -/
theorem popWord_sameControl {m t : Machine .none} {w : Handle}
    (popped : Act.popWord m = .ok w t) : SameControl m t := by
  rw [Act.popWord_apply] at popped
  split at popped
  · cases popped
  · cases popped
    exact ⟨⟨rfl, rfl, rfl⟩, rfl⟩
  · cases popped

/-- A run begins at the base, with the return stack as it is. -/
theorem Starts.entered {m entered : Machine .none} {w : Handle}
    (starts : Starts m w entered) :
    entered.returns = m.returns ∧
      entered.base = entered.returns.depth ∧ entered.cursor ≠ none := by
  induction starts with
  | @thread m w cells body =>
    have same : m.forgetBlame.returns = m.returns := by rw [forgetBlame_eq]
    exact ⟨same, rfl, by simp⟩
  | @exec m u entered w v body popped _ ih =>
    have popped' := (popWord_sameControl popped).returns
    have forgot : m.forgetBlame.returns = m.returns := by rw [forgetBlame_eq]
    have same : u.returns = m.returns := popped'.trans forgot
    rw [← same]
    exact ih

/-- Executing a word starts at most one run. -/
theorem Starts.unique {m entered entered' : Machine .none} {w : Handle}
    (starts : Starts m w entered) (starts' : Starts m w entered') :
    entered = entered' := by
  induction starts with
  | thread body =>
    cases starts' with
    | thread _ => rfl
    | exec body' _ _ =>
      rw [body] at body'
      cases body'
  | exec body popped _ ih =>
    cases starts' with
    | thread body' =>
      rw [body] at body'
      cases body'
    | exec _ popped' starts' =>
      rw [popped] at popped'
      cases popped'
      exact ih starts'

/-- The run of a token begins at the base, with the return stack as it is. -/
theorem Begins.entered {token : Token} {m entered : Machine .none}
    (begins : Begins token m entered) :
    entered.returns = m.returns ∧
      entered.base = entered.returns.depth ∧ entered.cursor ≠ none := by
  obtain ⟨_, _, _, starts⟩ := begins
  exact starts.entered

/-- A token starts at most one run. -/
theorem Begins.unique {token : Token} {m entered entered' : Machine .none}
    (begins : Begins token m entered) (begins' : Begins token m entered') :
    entered = entered' := by
  obtain ⟨w, translated, _, starts⟩ := begins
  obtain ⟨w', translated', _, starts'⟩ := begins'
  rw [translated] at translated'
  cases translated'
  exact starts.unique starts'

/-- With no thread running, the words that move through one fail, but for
`exec` and `bye`. -/
theorem threading_idle {call : Handle → Run .none Unit} (w : ThreadWord)
    (notExec : w ≠ .exec) {m t : Machine .none} (idle : m.cursor = none)
    (done : w.act call m = .ok () t) : t.finished = true := by
  have pushes : ThreadWord.pushOperand m ≠ .ok () t := by
    rw [ThreadWord.pushOperand, Act.bind_apply, Act.fetchOperand_apply, idle]
    intro h
    cases h
  cases w with
  | lit => exact absurd (Act.eq_ok_of_run done) pushes
  | tick => exact absurd (Act.eq_ok_of_run done) pushes
  | branch =>
    have h := Act.eq_ok_of_run done
    rw [ThreadWord.jumpAlways, Act.bind_apply, fetchOffset_idle idle] at h
    cases h
  | zeroBranch =>
    have h := Act.eq_ok_of_run done
    rw [ThreadWord.jumpUnless, Act.bind_apply] at h
    split at h
    · next u popped =>
      have idle' : u.cursor = none := by
        rw [Act.popTruth, Act.bind_apply, Act.pop_apply] at popped
        cases hpop : m.data.pop? with
        | none =>
          rw [hpop] at popped
          cases popped
        | some top =>
          rw [hpop] at popped
          cases popped
          exact idle
      rw [Act.bind_apply, fetchOffset_idle idle'] at h
      cases h
    · cases h
  | exit =>
    have h := Act.eq_ok_of_run done
    rw [Act.exitThread_apply, idle] at h
    cases h
  | exec => exact absurd rfl notExec
  | bye =>
    cases done
    rfl

/-- Parking only concerns the return stacks. -/
theorem Parking.of_same {m m' t t' : Machine .none} (h : Parking m t)
    (before : m'.returns = m.returns) (after : t'.returns = t.returns) :
    Parking m' t' := by
  cases h with
  | none frames => exact .none (by rw [after, before, frames])
  | park v frames => exact .park v (by rw [after, before, frames])
  | unpark v frames => exact .unpark v (by rw [after, before, frames])

/-- With no thread running, a built-in word other than `exec` and `bye` at
most parks a value or takes one back. -/
theorem act_idle {call : Handle → Run .none Unit} {b : Builtin}
    (notExec : b ≠ .thread .exec) {m t : Machine .none}
    (idle : m.cursor = none) (unfinished : t.finished = false)
    (done : b.act call m = .ok () t) : t.cursor = none ∧ Parking m t := by
  by_cases quiet : b.isQuiet = true
  · have touches := b.touches_act call quiet m
    rw [done] at touches
    have same := touches.sameControl
    exact ⟨same.cursor.trans idle, .none (congrArg Stack.items same.returns)⟩
  · cases b with
    | stack w =>
      obtain ⟨cursor, _, _, parking⟩ :=
        stacking_parks w (Act.eq_ok_of_run done)
      exact ⟨cursor.trans idle, parking⟩
    | thread w =>
      have other : w ≠ .exec := fun h => notExec (congrArg _ h)
      rw [threading_idle w other idle done] at unfinished
      cases unfinished
    | _ => exact absurd rfl quiet

/-- What comes of executing a word at top level: a whole run, or no run, and
then at most a value is parked or taken back. -/
def Idles (m : Machine .none) (w : Handle) (t : Machine .none) : Prop :=
  (∃ entered final, Starts m w entered ∧
    Reaches Primitives.pure entered final ∧ final.cursor = none ∧
    final.returns = t.returns ∧ final.finished = false) ∨
  ((∀ entered, ¬ Starts m w entered) ∧ Parking m t)

/-- `exec` does what the word does that it finds on the data stack. -/
theorem Idles.exec {m u t t' : Machine .none} {w v : Handle}
    (body : m.dictionary.body w = .builtin (.thread .exec))
    (popped : Act.popWord { m.forgetBlame with executing := some w } =
      .ok v u)
    (h : Idles u v t) (same : t'.returns = t.returns) : Idles m w t' := by
  rcases h with ⟨entered, final, starts, reach, halted, returns, unfinished⟩ |
    ⟨none_starts, parking⟩
  · exact .inl ⟨entered, final, .exec body popped starts, reach, halted,
      returns.trans same.symm, unfinished⟩
  · refine .inr ⟨fun entered starts => ?_, parking.of_same ?_ same⟩
    · cases starts with
      | thread body' =>
        rw [body] at body'
        cases body'
      | exec _ popped' starts =>
        rw [popped] at popped'
        cases popped'
        exact none_starts entered starts
    · have forgot : m.forgetBlame.returns = m.returns := by
        rw [forgetBlame_eq]
      exact forgot.symm.trans (popWord_sameControl popped).returns.symm

/-- **Executing a word at top level** either is a whole run, or starts none
and at most parks a value or takes one back. -/
theorem execute_idle (n : Nat) {w : Handle} {m t : Machine .none}
    (idle : m.cursor = none) (unfinished : t.finished = false)
    (done : execute Primitives.pure n w m = .ok () t) :
    t.cursor = none ∧ Idles m w t := by
  induction n generalizing w m t with
  | zero => cases done
  | succ n ih =>
    have forgot : SameControl m m.forgetBlame := by
      rw [forgetBlame_eq]
      exact ⟨⟨rfl, rfl, rfl⟩, rfl⟩
    have idle' := forgot.cursor.trans idle
    have dictionary : m.forgetBlame.dictionary = m.dictionary := by
      rw [forgetBlame_eq]
    rw [execute] at done
    dsimp only at done
    rw [dictionary] at done
    split at done
    · next b body =>
      obtain ⟨u, acted, rfl⟩ := invoke_ok done
      by_cases isExec : b = .thread .exec
      · subst isExec
        replace acted : (Act.popWord.run >>= execute Primitives.pure n)
          { m.forgetBlame with executing := some w } = .ok () u := acted
        rw [Act.bind_apply] at acted
        split at acted
        · next v x popped =>
          replace popped := Act.eq_ok_of_run popped
          have idle'' := (popWord_sameControl popped).cursor.trans idle'
          have unfinished' : u.finished = false := unfinished
          obtain ⟨cursor, rest⟩ := ih idle'' unfinished' acted
          exact ⟨cursor, rest.exec body popped rfl⟩
        · cases acted
      · have unfinished' : u.finished = false := unfinished
        have idle'' : { m.forgetBlame with executing := some w }.cursor =
          none := idle'
        obtain ⟨cursor, parking⟩ := act_idle isExec idle'' unfinished' acted
        refine ⟨cursor, .inr ⟨fun entered starts => ?_, ?_⟩⟩
        · cases starts with
          | thread body' =>
            rw [body] at body'
            cases body'
          | exec body' _ _ =>
            rw [body] at body'
            cases body'
            exact isExec rfl
        · exact parking.of_same forgot.returns.symm rfl
    · next code _ => exact code.elim
    · next cells body =>
      rw [idle'] at done
      unfold startRun at done
      dsimp only at done
      split at done
      · next final ran =>
        cases done
        obtain ⟨reach, halted⟩ := reaches_of_loop ran
        exact ⟨rfl, .inl ⟨_, final, .thread body, reach, halted, rfl,
          unfinished⟩⟩
      · cases done
      · cases done

/-! ## The condition -/

/-- A value that is not executed is pushed or compiled. -/
theorem processValue_touches {n : Nat} {v : Value} {m t : Machine .none}
    (inert : ∀ w, v = .word w →
      ¬ (m.interpreting ∨ m.dictionary.isImmediate w))
    (done : processValue Primitives.pure n v m = .ok () t) : Touches m t := by
  have compiles {c : Cell} {u u' : Machine .none}
      (h : Act.compile c u = .ok () u') : Touches u u' := by
    have touches := Act.touches_compile c u
    rw [h] at touches
    exact touches
  unfold processValue at done
  split at done
  · next w =>
    rw [if_neg (inert w rfl)] at done
    exact compiles (Act.eq_ok_of_run done)
  · next v _ =>
    split at done
    · cases done
      exact .single (.aside m _ m.memory m.interpreting m.location m.input
        m.output m.events)
    · replace done := Act.eq_ok_of_run done
      rw [Act.bind_apply, Act.builtin_apply] at done
      cases hlit : m.builtins.find? "lit" with
      | none =>
        rw [hlit] at done
        cases done
      | some lit =>
        rw [hlit] at done
        dsimp only at done
        rw [Act.bind_apply] at done
        split at done
        · next u first => exact (compiles first).trans (compiles done)
        · cases done

/-- In a run that comes to its end, the calls come back exactly if they are
made at the base or above it. -/
theorem allComeBack_iff {entered final : Machine .none}
    (base : entered.base = entered.returns.depth)
    (ends : Reaches Primitives.pure entered final)
    (halted : final.cursor = none) (unfinished : final.finished = false) :
    AllComeBack entered ↔ StaysLevel entered := by
  have rest {x y d} (reach : Reaches Primitives.pure entered x)
      (call : Calls x y d) :
      Reaches Primitives.pure y final ∧ y.base = entered.returns.depth := by
    have reach' := reach.tail call.turn
    exact ⟨Reaches.ahead reach' ends halted,
      (Reaches.base_eq reach').trans base⟩
  constructor
  · intro back x y d reach call
    obtain ⟨ends', base'⟩ := rest reach call
    by_contra low
    rw [x.returns.depth_eq] at low
    exact call.not_comesBack ends' halted unfinished (by omega)
      (back x y d reach call)
  · intro level x y d reach call
    obtain ⟨ends', base'⟩ := rest reach call
    have high := level x y d reach call
    rw [x.returns.depth_eq] at high
    exact call.comesBack ends' halted unfinished (by omega)

/-- In a run that begins at its base with only parked values there, only
parked values are left exactly if all calls are made at the base or above
it. -/
theorem onlyParked_iff {entered final : Machine .none}
    (base : entered.base = entered.returns.depth)
    (ends : Reaches Primitives.pure entered final)
    (halted : final.cursor = none) (unfinished : final.finished = false)
    (running : entered.cursor ≠ none)
    (parked : OnlyParked entered.returns.items) :
    OnlyParked final.returns.items ↔ StaysLevel entered := by
  constructor
  · intro parked' x y d reach call
    have reach' := reach.tail call.turn
    by_contra low
    rw [x.returns.depth_eq] at low
    have base' := Reaches.base_eq reach'
    have still := call.waits_of_low (Reaches.ahead reach' ends halted)
      unfinished (by omega)
    exact parked' _ (still.subset (List.mem_cons_self ..))
  · intro level
    have guarded : Guarded entered.base entered.returns.items := by
      intro c rest waits
      exact absurd (waits.subset (List.mem_cons_self ..)) (parked c)
    refine (guarded_run ends unfinished ?_ guarded).onlyParked
      (Reaches.at_base ends running halted unfinished)
    intro x y d reach call
    rw [base, ← x.returns.depth_eq]
    exact level x y d reach call

/-- Parking and taking back keep the return stack free of calls. -/
theorem Parking.onlyParked {m t : Machine .none} (h : Parking m t)
    (parked : OnlyParked m.returns.items) : OnlyParked t.returns.items := by
  intro c mem
  cases h with
  | none frames => exact parked c (frames ▸ mem)
  | park v frames =>
    rw [frames] at mem
    exact parked c (List.mem_of_ne_of_mem (by simp) mem)
  | unpark v frames =>
    apply parked c
    rw [frames]
    exact List.mem_cons_of_mem _ mem

/-- A token at top level is a whole run, or starts none and at most parks a
value or takes one back. -/
theorem processToken_idle {n : Nat} {token : Token} {m t : Machine .none}
    (idle : m.cursor = none) (unfinished : t.finished = false)
    (done : processToken Primitives.pure n token m = .ok () t) :
    t.cursor = none ∧
    ((∃ entered final, Begins token m entered ∧
        Reaches Primitives.pure entered final ∧ final.cursor = none ∧
        final.returns = t.returns ∧ final.finished = false) ∨
      ((∀ entered, ¬ Begins token m entered) ∧ Parking m t)) := by
  unfold processToken at done
  by_cases executed : ∃ w, m.dictionary.translate token.text = .word w ∧
      (m.interpreting ∨ m.dictionary.isImmediate w)
  · obtain ⟨w, translated, runs⟩ := executed
    rw [translated] at done
    unfold processValue at done
    dsimp only at done
    rw [if_pos runs] at done
    obtain ⟨cursor, idles⟩ := execute_idle n idle unfinished done
    refine ⟨cursor, ?_⟩
    rcases idles with ⟨entered, final, starts, rest⟩ |
      ⟨none_starts, parking⟩
    · exact .inl ⟨entered, final, ⟨w, translated, runs, starts⟩, rest⟩
    · refine .inr ⟨?_, parking⟩
      rintro entered ⟨v, translated', _, starts⟩
      rw [translated] at translated'
      cases translated'
      exact none_starts entered starts
  · have touches := processValue_touches
      (fun w h runs => executed ⟨w, h, runs⟩) done
    have same := touches.sameControl
    refine ⟨same.cursor.trans idle, .inr ⟨?_,
      .none (congrArg Stack.items same.returns)⟩⟩
    rintro entered ⟨w, translated, runs, _⟩
    exact executed ⟨w, translated, runs⟩

/-- **Calls come back exactly if they are made at the base or above it.**
At top level, after a token that did not stop the machine no thread is
running; every thread that was called has come back to the cell after the
call if and only if no call was made from below the depth which the return
stack had at the start; and if there were only parked values on the return
stack, there are only parked values on it afterwards under that same
condition and under no other. -/
theorem returns_iff_level (n : Nat) (token : Token) {m t : Machine .none}
    (idle : m.cursor = none) (unfinished : t.finished = false)
    (done : processToken Primitives.pure n token m = .ok () t) :
    t.cursor = none ∧
    ((∀ entered, Begins token m entered → AllComeBack entered) ↔
      ∀ entered, Begins token m entered → StaysLevel entered) ∧
    (OnlyParked m.returns.items →
      (OnlyParked t.returns.items ↔
        ∀ entered, Begins token m entered → StaysLevel entered)) := by
  obtain ⟨cursor, whole | ⟨none_begins, parking⟩⟩ :=
    processToken_idle idle unfinished done
  · obtain ⟨entered, final, begins, ends, halted, returns, unfinished'⟩ := whole
    obtain ⟨frames, base, running⟩ := begins.entered
    -- There is one run, so that all runs are that one.
    have only (P : Machine .none → Prop) :
        (∀ e, Begins token m e → P e) ↔ P entered :=
      ⟨fun h => h entered begins, fun h e begins' =>
        begins.unique begins' ▸ h⟩
    refine ⟨cursor, ?_, ?_⟩
    · rw [only, only]
      exact allComeBack_iff base ends halted unfinished'
    · intro parked
      rw [only, ← returns]
      exact onlyParked_iff base ends halted unfinished' running
        (frames ▸ parked)
  · have vacuous (P : Machine .none → Prop) :
        ∀ e, Begins token m e → P e :=
      fun e begins => absurd begins (none_begins e)
    refine ⟨cursor, iff_of_true (vacuous _) (vacuous _), ?_⟩
    exact fun parked => iff_of_true (parking.onlyParked parked) (vacuous _)

/-- The token `f` at the start of a text. -/
def tokenF : Token := ⟨.start "", "f"⟩

/-- What the token `f` comes to in that machine. -/
def havingF (text : String) :
    EStateM.Result (Halt Fault) (Machine .none) Unit :=
  processToken Primitives.pure 200 tokenF (having text)

/-- A word that calls first and takes back afterwards what was parked before
it was run: the call comes back, and nothing is left on the return stack. -/
theorem call_before_taking_back :
    (having ": g ; : f g r> drop ; 1 >r").returns.depth = 1 ∧
    (leftBy (havingF ": g ; : f g r> drop ; 1 >r")).returns.depth = 0 ∧
    ∀ entered, Begins tokenF (having ": g ; : f g r> drop ; 1 >r") entered →
      AllComeBack entered := by
  have before : (having ": g ; : f g r> drop ; 1 >r").returns.depth = 1 ∧
      (having ": g ; : f g r> drop ; 1 >r").cursor = none ∧
      OnlyParked (having ": g ; : f g r> drop ; 1 >r").returns.items := by
    decide +kernel
  have after :
      (leftBy (havingF ": g ; : f g r> drop ; 1 >r")).returns.depth = 0 ∧
      (leftBy (havingF ": g ; : f g r> drop ; 1 >r")).finished = false ∧
      isOk (havingF ": g ; : f g r> drop ; 1 >r") = true ∧
      OnlyParked
        (leftBy (havingF ": g ; : f g r> drop ; 1 >r")).returns.items := by
    decide +kernel
  obtain ⟨one, idle, parked⟩ := before
  obtain ⟨zero, unfinished, done, parked'⟩ := after
  obtain ⟨_, comeBack, onlyParked⟩ := returns_iff_level 200 tokenF idle
    unfinished (eq_ok_of_isOk done)
  exact ⟨one, zero, comeBack.2 ((onlyParked parked).1 parked')⟩

/-- **What was parked before the run is taken back, and then a thread is
called.**  The thread exits below the base of the run and ends it: the caller
does not go on, `42` is not pushed, and the call stays on the return stack. -/
theorem taken_back_frame_stays :
    OnlyParked (having ": g ; : f r> drop g 42 ; 1 >r").returns.items ∧
    isOk (havingF ": g ; : f r> drop g 42 ; 1 >r") = true ∧
    (leftBy (havingF ": g ; : f r> drop g 42 ; 1 >r")).finished = false ∧
    (leftBy (havingF ": g ; : f r> drop g 42 ; 1 >r")).data.depth = 0 ∧
    ¬ OnlyParked
      (leftBy (havingF ": g ; : f r> drop g 42 ; 1 >r")).returns.items := by
  decide +kernel

end Machine

end Forth
