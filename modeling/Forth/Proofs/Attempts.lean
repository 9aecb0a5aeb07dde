import Forth.Proofs.Resumption

/-!
# Booting can not spin

To boot is to execute the thread `init` again and again, until an attempt ends
without a fault.  What keeps this from going on for ever is the input.  The
thread asks for a token before anything in it can fail, and if there is none,
it goes straight to its end (`reaches_end`).  So an attempt that fails has
used up a token, and passing over the failure gives up some more of the text,
never less.

How far the input has come is said by what stays unread: a machine only ever
goes on to a suffix of that (`tokenProof_suffix`, `lockstep_unread`).  Text
that is a suffix of another has no more tokens than that one
(`Source.length_remaining_le`), even if it starts in the middle of one.

Main statement: `attempts_use_up_tokens`.
-/

namespace Forth

namespace Source

variable {r s rest : Source} {cs ds : List Char}

/-! ## Suffixes of a text -/

/-- What a token that is read leaves of a text. -/
def behindToken (cs : List Char) : List Char :=
  (cs.dropWhile isBlank).dropWhile fun c => !isBlank c

theorem unread_nextToken (s : Source) :
    s.nextToken.2.unread = behindToken s.unread := by
  rw [nextToken_eq, behindToken]
  dsimp only
  rw [← unread_takeWhile]
  split
  · next ended =>
    rw [ended]
    rfl
  · exact unread_takeWhile _ _

theorem behindToken_suffix (cs : List Char) : behindToken cs <:+ cs :=
  (List.dropWhile_suffix _).trans (List.dropWhile_suffix _)

/-- A character more in front does not make less of what is left. -/
theorem behindToken_cons_suffix (c : Char) (cs : List Char) :
    behindToken cs <:+ behindToken (c :: cs) := by
  unfold behindToken
  cases blank : isBlank c with
  | true =>
    rewrite [List.dropWhile_cons_of_pos blank]
    exact List.suffix_refl _
  | false =>
    rw [List.dropWhile_cons_of_neg (by simp [blank]),
      List.dropWhile_cons_of_pos (by simp [blank])]
    -- With `c` a token begins, which the next character may belong to.
    cases cs with
    | nil => exact List.suffix_refl _
    | cons d cs =>
      cases apart : isBlank d with
      | true =>
        rw [List.dropWhile_cons_of_neg (p := fun c => !isBlank c) (a := d)
          (by simp [apart])]
        exact behindToken_suffix (d :: cs)
      | false =>
        rewrite [List.dropWhile_cons_of_neg (by simp [apart])]
        exact List.suffix_refl _

theorem behindToken_suffix_of_suffix (h : cs <:+ ds) :
    behindToken cs <:+ behindToken ds := by
  induction ds with
  | nil =>
    rewrite [List.suffix_nil.mp h]
    exact List.suffix_refl _
  | cons d ds ih =>
    rcases List.suffix_cons_iff.mp h with rfl | later
    · exact List.suffix_refl _
    · exact (ih later).trans (behindToken_cons_suffix d ds)

/-- **A suffix of a text has no more tokens.** -/
theorem length_remaining_le (h : r.unread <:+ s.unread) :
    r.remaining.length ≤ s.remaining.length := by
  induction s using reading generalizing r with
  | ended s none =>
    have empty : ∀ c ∈ s.unread, isBlank c = true := by
      rcases s.nextToken_cases with
        ⟨empty, _⟩ | ⟨_, _, _, _, _, _, _, _, some, _⟩
      · exact empty
      · rw [none] at some
        cases some
    have ended : r.nextToken.1 = .none :=
      nextToken_of_blank fun c mem => empty c (h.mem mem)
    rw [remaining_of_none ended]
    exact Nat.zero_le _
  | token s t rest read ih =>
    rw [remaining_of_some read, List.length_cons]
    rcases first : r.nextToken with ⟨_ | u, left⟩
    · rw [remaining_of_none (by rw [first])]
      exact Nat.zero_le _
    · rw [remaining_of_some first, List.length_cons]
      refine Nat.succ_le_succ (ih ?_)
      have after := behindToken_suffix_of_suffix h
      rwa [← unread_nextToken, ← unread_nextToken, read, first] at after

/-- Somebody has read the next token of a source, and possibly more. -/
def UsesToken (s r : Source) : Prop :=
  ∃ token rest, s.nextToken = (some token, rest) ∧ r.unread <:+ rest.unread

/-- Then fewer tokens are left. -/
theorem UsesToken.length_lt (h : UsesToken s r) :
    r.remaining.length < s.remaining.length := by
  obtain ⟨token, rest, read, suffix⟩ := h
  rw [remaining_of_some read]
  exact Nat.lt_succ_of_le (length_remaining_le suffix)

/-- Giving up the line leaves a suffix. -/
theorem unread_discardLine (s : Source) :
    s.discardLine.unread <:+ s.unread := by
  have drops (count : Nat) : (s.drop count).unread <:+ s.unread := by
    rw [unread, unread, atHand_drop]
    exact List.suffix_append_self_iff.mpr (List.drop_suffix _ _)
  unfold discardLine
  split
  · exact drops _
  · exact drops _

/-- Collecting notices leaves the text. -/
theorem unread_takeNotices (s : Source) :
    s.takeNotices.2.unread = s.unread :=
  s.takeNotices_sameText.unread

end Source

namespace Machine

open Relation

variable {m t u : Machine .none} {n : Nat} {f : Fault} {text : List Char}

/-! ## How far the input has come -/

/-- Of a text only a suffix is left, and after one more token still. -/
theorem tokenProof_suffix (text : List Char) :
    TokenProof fun s _ => s.unread <:+ text := by
  intro m left
  rw [nextToken_eq]
  dsimp only
  rw [Source.unread_takeNotices, Source.unread_nextToken]
  exact (Source.behindToken_suffix _).trans left

/-- The same holds of a single character. -/
theorem unread_nextChar (m : Machine .none) :
    m.nextChar.2.input.unread <:+ m.input.unread := by
  have left : m.nextChar.2.input = m.input.next.2.takeNotices.2 := by
    show (m.withInput m.input.next.2).input = _
    rw [withInput_eq]
  rw [left, Source.unread_takeNotices]
  cases unread : m.input.unread with
  | nil =>
    rewrite [Source.next_of_nil unread, Source.unread_fill, unread]
    exact List.suffix_refl _
  | cons c cs =>
    rw [Source.next_of_cons unread, Source.unread_pass unread]
    exact List.suffix_cons _ _

/-- **A machine is in lockstep with itself** as its input is used up, and no
word is out of reach. -/
theorem lockstep_unread (text : List Char) :
    Lockstep (Placed fun s _ => s.unread <:+ text) (fun _ => False)
      fun _ => false :=
  let k := lockstep_placed (tokenProof_suffix text)
  { k with
    prying := by
      intro b pries _ f g
      by_cases isKey : b = .console .key
      · subst isKey
        have reads : Follows (Placed fun s _ => s.unread <:+ text)
            (fun _ : Fault => False) Act.nextChar? Act.nextChar? :=
          follows_placed fun m left => (unread_nextChar m).trans left
        exact (reads.bind fun c => k.push _).runs
      · exact k.prying pries (beq_eq_false_iff_ne.2 isKey) f g
    maxDepth := fun _ => k.maxDepth rfl }

/-- What carrying on a thread leaves unread was unread before. -/
theorem loop_unread (ends : Ends (loop Primitives.pure n m)) :
    (leftBy (loop Primitives.pure n m)).input.unread <:+ m.input.unread :=
  placed_of_matches (((lockstep_unread m.input.unread).execute_loop n).2 m m
    ⟨rfl, List.suffix_refl _⟩) ends

/-! ## One attempt -/

theorem asked_eq (m : Machine .none) :
    m.asked.1 = m.input.nextToken.1 ∧
    m.asked.2 = { m with
      interpreting := true
      input := m.input.nextToken.2.takeNotices.2
      location := (m.input.nextToken.1.map Token.location).or m.location
      output := m.asked.2.output
      events := m.asked.2.events } := by
  unfold asked
  exact ⟨nextToken_fst _, nextToken_eq _⟩

/-- **An attempt that fails has used up a token.** -/
theorem usesToken_of_failed (stocked : Stocked m) (idle : m.cursor = none)
    (failed : execute Primitives.pure n initHandle m =
      .error (.failed f) t) : m.input.UsesToken t.input := by
  obtain ⟨u, ran, same, _⟩ := loop_of_execute_failed stocked idle failed
  obtain ⟨token, v, read, x, k, h, rest⟩ := exists_token_of_loop_failed
    Primitives.pure_cut stocked ran
  obtain ⟨first, after⟩ := m.asked_eq
  rw [read] at first after
  have left : x.input.unread = m.input.nextToken.2.unread := by
    rw [h.input, ← Source.unread_takeNotices m.input.nextToken.2]
    exact congrArg (fun v => v.input.unread) after
  have suffix := loop_unread (rest ▸ ends_failed f u)
  rw [rest, left] at suffix
  exact ⟨token, _, Prod.ext first.symm rfl, same ▸ suffix⟩

/-- What an attempt leaves as it was that finds no token. -/
structure Untouched (m t : Machine .none) : Prop where
  data : t.data.items = m.data.items
  returns : t.returns.items = m.returns.items
  dictionary : t.dictionary = m.dictionary
  memory : t.memory = m.memory

/-- **With no token left an attempt ends well.** -/
theorem execute_init_of_ended (stocked : Stocked m) (idle : m.cursor = none)
    (ended : m.input.nextToken.1 = none) :
    ∃ t, Untouched m t ∧ ∃ n, ∀ k, n ≤ k →
      execute Primitives.pure k initHandle m = .ok () t := by
  obtain ⟨first, after⟩ := m.asked_eq
  obtain ⟨t, reach, halted, alike, returns⟩ :=
    reaches_end stocked (first.trans ended)
  have quiet := loop_of_none Primitives.pure 0 halted
  obtain ⟨n, ran⟩ := exists_loop_of_reaches Primitives.pure_cut reach
    (n := 1) (quiet ▸ ends_ok () t)
  have done : execute Primitives.pure (n + 1) initHandle m =
      .ok () { t with cursor := none, base := m.forgetBlame.base } := by
    rw [execute_init stocked idle]
    exact startRun_of_ok (m := m.forgetBlame) (ran.trans quiet)
  rw [after] at alike
  exact ⟨{ t with cursor := none, base := m.forgetBlame.base },
    ⟨alike.data, returns, alike.dictionary, alike.memory⟩, n + 1,
    fun k large =>
      (execute_cut Primitives.pure_cut initHandle large).eq_ok done⟩

/-- Nothing is reported during an attempt. -/
theorem execute_init_reports (n : Nat) (m : Machine .none) :
    (leftBy (execute Primitives.pure n initHandle m)).reports = m.reports :=
  ((steadfast_reports m.reports).execute_loop (fun _ => false) n).1
    initHandle m rfl

/-- After an attempt that fails another can be made, and fewer tokens are
left for it. -/
theorem Mishap.next_attempt {x : Mishap} (stocked : Stocked x.start)
    (idle : x.start.cursor = none)
    (failed : execute Primitives.pure n initHandle x.start =
      .error (.failed x.fault) x.left) :
    Stocked x.resumed ∧ x.resumed.cursor = none ∧
      x.resumed.reports.length = x.start.reports.length + 1 ∧
      x.resumed.input.remaining.length < x.start.input.remaining.length := by
  have grows := execute_grows n initHandle x.start
  have reports := execute_init_reports n x.start
  rw [failed] at grows reports
  have fewer := (usesToken_of_failed stocked idle failed).length_lt
  have given := Source.length_remaining_le x.left.input.unread_discardLine
  refine ⟨Mishap.stocked (stocked.of_grows grows), ?_, ?_, ?_⟩
  · rw [x.resumed_eq]
  · rw [x.resumed_eq]
    exact congrArg (fun l => l.length + 1) reports
  · rw [x.resumed_eq]
    exact Nat.lt_of_le_of_lt given fewer

/-! ## All attempts -/

/-- Each report has used up a token. -/
theorem bootFrom_reports_le (stocked : Stocked m) (idle : m.cursor = none)
    (n : Nat) :
    (leftBy (bootFrom Primitives.pure .resume initHandle n m)).reports.length
      ≤ m.reports.length + m.input.remaining.length := by
  induction n generalizing m with
  | zero => exact Nat.le_add_right _ _
  | succ n ih =>
    have reports := execute_init_reports n m
    rw [bootFrom]
    dsimp only
    split
    · exact Nat.le_add_right _ _
    · cases executed : execute Primitives.pure n initHandle m with
      | ok a t =>
        rw [executed] at reports
        exact Nat.le_add_right_of_le (Nat.le_of_eq (congrArg _ reports))
      | error e t =>
        cases e with
        | starved =>
          rw [executed] at reports
          exact Nat.le_add_right_of_le (Nat.le_of_eq (congrArg _ reports))
        | failed f =>
          obtain ⟨stocked', idle', one, fewer⟩ :=
            Mishap.next_attempt (x := ⟨m, f, t⟩) stocked idle executed
          have later := ih stocked' idle'
          rw [one] at later
          exact Nat.le_trans later (by dsimp only at fewer ⊢; omega)

/-- If every attempt ends, the row of attempts does, by induction on the
number of tokens that are left. -/
theorem bootFrom_ends (stocked : Stocked m) (idle : m.cursor = none)
    (attempts : ∀ x, ReflTransGen (Outer.thread.Round .resume) m x →
      x.finished = false →
      ∃ n, Ends (execute Primitives.pure n initHandle x)) :
    ∃ n t, bootFrom Primitives.pure .resume initHandle n m = .ok () t := by
  induction left : m.input.remaining.length using Nat.strongRecOn
    generalizing m with
  | ind left' ih =>
    cases going : m.finished with
    | true =>
      refine ⟨1, m, ?_⟩
      rw [bootFrom]
      simp only [going, if_true]
    | false =>
      obtain ⟨n, ends⟩ := attempts m .refl going
      cases executed : execute Primitives.pure n initHandle m with
      | ok a t =>
        refine ⟨n + 1, t, ?_⟩
        rw [bootFrom]
        simp only [going, Bool.false_eq_true, if_false, executed]
      | error e t =>
        cases e with
        | starved => exact absurd executed (ends t)
        | failed f =>
          obtain ⟨stocked', idle', _, fewer⟩ :=
            Mishap.next_attempt (x := ⟨m, f, t⟩) stocked idle executed
          have round : Outer.thread.Round .resume m
              (Mishap.resumed ⟨m, f, t⟩) :=
            .resumed (.executing (.init going stocked.finds_init) executed)
              rfl
          obtain ⟨k, u, rest⟩ := ih _ (left ▸ fewer) stocked' idle'
            (fun x rounds => attempts x (.head round rounds)) rfl
          -- One allowance for the attempt and for those that follow.
          refine ⟨max n k + 1, u, ?_⟩
          have more := execute_cut Primitives.pure_cut initHandle
            (Nat.le_max_left n k)
          have again := bootFrom_cut Primitives.pure_cut .resume initHandle k
            _ (Nat.le_max_right n k)
          rw [bootFrom]
          simp only [going, Bool.false_eq_true, if_false,
            (more.eq_of_ends ends).trans executed]
          exact again.eq_ok rest

/-- A row of attempts that ends well begins with one that ends. -/
theorem attempt_of_bootFrom (going : m.finished = false)
    (done : bootFrom Primitives.pure .resume initHandle n m = .ok () t) :
    ∃ k, n = k + 1 ∧ Ends (execute Primitives.pure k initHandle m) := by
  cases n with
  | zero => cases done
  | succ n =>
    rw [bootFrom] at done
    simp only [going, Bool.false_eq_true, if_false] at done
    refine ⟨n, rfl, fun u starved => ?_⟩
    rw [starved] at done
    cases done

/-- An attempt of the thread that fails is an execution of `init`. -/
theorem failed_of_breaks (stocked : Stocked m)
    (breaks : Outer.thread.Breaks m f t) :
    m.finished = false ∧ ∃ k,
      execute Primitives.pure k initHandle m = .error (.failed f) t := by
  cases breaks with
  | executing executes failed =>
    cases executes with
    | init going found =>
      cases stocked.finds_init.symm.trans found
      exact ⟨going, _, failed⟩

/-- If the row of attempts ends, every attempt in it does. -/
theorem attempt_ends {x : Machine .none} (stocked : Stocked m)
    (done : bootFrom Primitives.pure .resume initHandle n m = .ok () t)
    (rounds : ReflTransGen (Outer.thread.Round .resume) m x)
    (going : x.finished = false) :
    ∃ k, Ends (execute Primitives.pure k initHandle x) := by
  induction rounds using ReflTransGen.head_induction_on generalizing n with
  | refl =>
    obtain ⟨k, rfl, ends⟩ := attempt_of_bootFrom going done
    exact ⟨k, ends⟩
  | @head m y round _ ih =>
    cases round with
    | token rule => cases rule
    | resumed breaks handled =>
      rename_i z f
      obtain ⟨going', j, failed⟩ := failed_of_breaks stocked breaks
      obtain ⟨k, rfl, ends⟩ := attempt_of_bootFrom going' done
      have same := (execute_unique Primitives.pure_cut ends
        (failed ▸ ends_failed f z)).trans failed
      have grows := execute_grows k initHandle m
      rw [same] at grows
      rw [bootFrom] at done
      simp only [going', Bool.false_eq_true, if_false, same, handled] at done
      cases handled
      exact ih (Mishap.stocked (x := ⟨m, f, z⟩) (stocked.of_grows grows)) done

/-! ## Booting -/

theorem boot_eq_bootFrom (stocked : Stocked m) (n : Nat) :
    boot Primitives.pure .resume n m =
      bootFrom Primitives.pure .resume initHandle n m := by
  rw [boot_apply, stocked.finds_init]

/-- **Booting can not spin.**  Take a machine at top level with only built-in
native words, whatever is on its stacks and left of its input, and let `init`
be the word that booting executes again and again.

An attempt to execute it that fails has read a token, and leaves fewer tokens
than there were.  If there is none, an attempt ends well, and leaves data
stack, return stack, dictionary and variables as they were.  So a run that
passes over failures reports no more of them than the input has tokens,
whatever its allowance; and it ends well, with an allowance that suffices, if
and only if each attempt that it comes to ends. -/
theorem attempts_use_up_tokens (born : Born m) (idle : m.cursor = none)
    {init : Handle} (found : m.builtins.find? "init" = some init) :
    (∀ n f t, execute Primitives.pure n init m = .error (.failed f) t →
      m.input.UsesToken t.input ∧
      t.input.remaining.length < m.input.remaining.length) ∧
    (m.input.remaining = [] → ∃ t, Untouched m t ∧ ∃ n, ∀ k, n ≤ k →
      execute Primitives.pure k init m = .ok () t) ∧
    (∀ n, (leftBy (boot Primitives.pure .resume n m)).reports.length ≤
      m.reports.length + m.input.remaining.length) ∧
    ((∀ x, ReflTransGen (Outer.thread.Round .resume) m x →
        x.finished = false →
        ∃ n, Ends (execute Primitives.pure n init x)) ↔
      ∃ t n, ∀ k, n ≤ k → boot Primitives.pure .resume k m = .ok () t) := by
  have stocked := born.stocked
  cases stocked.finds_init.symm.trans found
  refine ⟨fun n f t failed => ?_, fun empty => ?_, fun n => ?_,
    fun attempts => ?_, fun ⟨t, n, done⟩ x rounds going => ?_⟩
  · have uses := usesToken_of_failed stocked idle failed
    exact ⟨uses, uses.length_lt⟩
  · refine execute_init_of_ended stocked idle ?_
    rw [← Source.head?_remaining, empty]
    rfl
  · rw [boot_eq_bootFrom stocked]
    exact bootFrom_reports_le stocked idle n
  · obtain ⟨n, t, done⟩ := bootFrom_ends stocked idle attempts
    rw [← boot_eq_bootFrom stocked] at done
    exact ⟨t, n, fun k large =>
      (boot_cut Primitives.pure_cut .resume large).eq_ok done⟩
  · have booted := done n (Nat.le_refl n)
    rw [boot_eq_bootFrom stocked] at booted
    exact attempt_ends stocked booted rounds going

/-- A machine with a value left on its return stack, and a text that parks
another, takes away what the thread keeps on the data stack, and makes the
thread read and leave itself. -/
def unruly : Machine .none :=
  { origin.given "" "1 >r drop drop\nlit 2\nexit 3" with
    returns := Stack.empty.push (.value (.bool true)) }

/-- Two of its three attempts fail, and the third comes to an end without
having read everything. -/
theorem attempts_on_unruly_end :
    unruly.input.remaining.length = 8 ∧
    (leftBy (boot Primitives.pure .resume 50 unruly)).reports.length = 2 ∧
    ∀ x, ReflTransGen (Outer.thread.Round .resume) unruly x →
      x.finished = false →
      ∃ n, Ends (execute Primitives.pure n initHandle x) := by
  have facts : isOk (boot Primitives.pure .resume 50 unruly) = true ∧
      unruly.input.remaining.length = 8 ∧
      (leftBy (boot Primitives.pure .resume 50 unruly)).reports.length = 2 ∧
      unruly.cursor = none := by
    decide +kernel
  obtain ⟨ended, tokens, reports, idle⟩ := facts
  have born : Born unruly :=
    ⟨.unlimited, .none, .tail (.single (.touch (.aside _ _ _ _ _ _ _ _)))
      (.control _ _ _ _ _ _ _ _)⟩
  have done := eq_ok_of_isOk ended
  have settled := attempts_use_up_tokens born idle born.stocked.finds_init
  have lasts (k : Nat) (large : 50 ≤ k) :=
    (boot_cut Primitives.pure_cut .resume large).eq_ok done
  exact ⟨tokens, reports, settled.2.2.2.mpr ⟨_, 50, lasts⟩⟩

end Machine

end Forth
