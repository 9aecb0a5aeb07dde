import Forth.Proofs.Requests

/-!
# The tokens of a text are its maximal runs

A **maximal run** of a text is a stretch of characters that are not blank,
with a blank or an end of the text on either side.  This speaks of indices
only, and of no reading.

Reading a text token by token gives its maximal runs from left to right, each
once, with the place of its first character.  The step is
`maximalRun_of_split`: between two blank edges, the runs are the one that is
read next and those that begin behind it.

Main statement: `tokenize_maximal_runs`.
-/

namespace Forth

/-- A stretch of a text, from one index up to another. -/
structure Stretch where
  start : Nat
  stop : Nat
deriving DecidableEq, Repr

/-- There is a character at an index, and it is not blank. -/
def FilledAt (text : List Char) (i : Nat) : Prop :=
  ∃ c, text[i]? = some c ∧ isBlank c = false

/-- A stretch without blanks that can not be made longer. -/
structure MaximalRun (text : List Char) (r : Stretch) : Prop where
  nonempty : r.start < r.stop
  filled : ∀ i, r.start ≤ i → i < r.stop → FilledAt text i
  before : ∀ i, i + 1 = r.start → ¬ FilledAt text i
  after : ¬ FilledAt text r.stop

/-- The token that a stretch of a text is read as. -/
def Stretch.token (path : String) (text : List Char) (r : Stretch) : Token :=
  ⟨placeAfter path (text.take r.start),
    String.ofList ((text.drop r.start).take (r.stop - r.start))⟩

section Split

variable {consumed blanks run rest : List Char}

/-- Blanks are not filled. -/
theorem not_filledAt_of_blanks (empty : ∀ c ∈ blanks, isBlank c = true)
    {i : Nat} (low : consumed.length ≤ i)
    (high : i < consumed.length + blanks.length) :
    ¬ FilledAt (consumed ++ (blanks ++ rest)) i := by
  rintro ⟨c, present, filled⟩
  rw [List.getElem?_append_right low,
    List.getElem?_append_left (by omega)] at present
  rw [empty c (List.mem_of_getElem? present)] at filled
  cases filled

/-- Characters that are not blank are filled. -/
theorem filledAt_of_run (filled : ∀ c ∈ run, isBlank c = false) {i : Nat}
    (low : consumed.length ≤ i)
    (high : i < consumed.length + run.length) :
    FilledAt (consumed ++ (run ++ rest)) i := by
  have within : i - consumed.length < run.length := by omega
  refine ⟨run[i - consumed.length], ?_, filled _ (List.getElem_mem within)⟩
  rw [List.getElem?_append_right low, List.getElem?_append_left within]
  exact List.getElem?_eq_getElem within

/-- Behind a token the text is not filled. -/
theorem not_filledAt_of_apart (apart : ∀ c ∈ rest.head?, isBlank c = true) :
    ¬ FilledAt (consumed ++ rest) consumed.length := by
  rintro ⟨c, present, filled⟩
  rw [List.getElem?_append_right (Nat.le_refl _), Nat.sub_self,
    ← List.head?_eq_getElem?] at present
  rw [apart c present] at filled
  cases filled

/-- Where only blanks are left, no run begins. -/
theorem not_maximalRun_of_blanks (empty : ∀ c ∈ blanks, isBlank c = true)
    {text : List Char} (split : text = consumed ++ blanks) {r : Stretch}
    (maximal : MaximalRun text r) : ¬ consumed.length ≤ r.start := by
  intro low
  have first := maximal.filled r.start (Nat.le_refl _) maximal.nonempty
  obtain ⟨c, present, _⟩ := id first
  have high := (List.getElem?_eq_some_iff.1 present).1
  rw [split, List.length_append] at high
  rw [split, ← List.append_nil blanks] at first
  exact not_filledAt_of_blanks empty low high first

/-- Where the text goes on with blanks and a token, the maximal runs from
there on are the token and those that begin behind it. -/
theorem maximalRun_of_split (empty : ∀ c ∈ blanks, isBlank c = true)
    (something : run ≠ []) (filled : ∀ c ∈ run, isBlank c = false)
    (apart : ∀ c ∈ rest.head?, isBlank c = true) {text : List Char}
    (split : text = consumed ++ (blanks ++ (run ++ rest)))
    (edge : ∀ i, i + 1 = consumed.length → FilledAt text i →
      ¬ FilledAt text consumed.length) (r : Stretch) :
    (MaximalRun text r ∧ consumed.length ≤ r.start) ↔
      r = ⟨consumed.length + blanks.length,
        consumed.length + blanks.length + run.length⟩ ∨
      (MaximalRun text r ∧
        consumed.length + blanks.length + run.length ≤ r.start) := by
  have positive : 0 < run.length := List.length_pos_iff.2 something
  -- What stands where, by index.
  have gap {i : Nat} (low : consumed.length ≤ i)
      (high : i < consumed.length + blanks.length) : ¬ FilledAt text i := by
    rw [split]
    exact not_filledAt_of_blanks empty low high
  have token {i : Nat} (low : consumed.length + blanks.length ≤ i)
      (high : i < consumed.length + blanks.length + run.length) :
      FilledAt text i := by
    rw [split, ← List.append_assoc]
    exact filledAt_of_run filled (by rwa [List.length_append])
      (by rwa [List.length_append])
  have behind : ¬ FilledAt text
      (consumed.length + blanks.length + run.length) := by
    rw [split, ← List.append_assoc, ← List.append_assoc,
      ← List.length_append, ← List.length_append]
    exact not_filledAt_of_apart apart
  constructor
  · rintro ⟨maximal, from_⟩
    obtain ⟨nonempty, inside, before, after⟩ := maximal
    by_cases later :
      consumed.length + blanks.length + run.length ≤ r.start
    · exact .inr ⟨⟨nonempty, inside, before, after⟩, later⟩
    · -- A run that begins in the token begins and ends with it.
      left
      have notGap : consumed.length + blanks.length ≤ r.start := by
        by_contra early
        exact gap from_ (by omega) (inside r.start (Nat.le_refl _) nonempty)
      have first : r.start = consumed.length + blanks.length := by
        by_contra inner
        exact before (r.start - 1) (by omega)
          (token (by omega) (by omega))
      have last : r.stop = consumed.length + blanks.length + run.length := by
        rcases Nat.lt_trichotomy r.stop
          (consumed.length + blanks.length + run.length) with
          short | exactly | long
        · exact absurd (token (by omega) short) after
        · exact exactly
        · exact absurd (inside _ (by omega) long) behind
      obtain ⟨start, stop⟩ := r
      cases first
      cases last
      rfl
  · rintro (rfl | ⟨maximal, later⟩)
    · refine ⟨⟨by simpa using positive, fun i low high => token low high,
        fun i next => ?_, behind⟩, Nat.le_add_right _ _⟩
      dsimp only at next
      by_cases none : blanks.length = 0
      · intro filledBefore
        exact edge i (by omega) filledBefore
          (token (by omega) (by omega))
      · exact gap (by omega) (by omega)
    · exact ⟨maximal, by omega⟩

/-- The token is the one that the stretch is read as. -/
theorem token_of_split (path : String) {text : List Char}
    (split : text = consumed ++ (blanks ++ (run ++ rest))) :
    Stretch.token path text
        ⟨consumed.length + blanks.length,
          consumed.length + blanks.length + run.length⟩ =
      ⟨placeAfter path (consumed ++ blanks), String.ofList run⟩ := by
  unfold Stretch.token
  dsimp only
  rw [split, ← List.append_assoc, ← List.length_append, List.take_left,
    List.drop_left, Nat.add_sub_cancel_left, List.take_left]

end Split

/-- The tokens that are left to read are the maximal runs that are left, as
long as the cursor does not stand within one. -/
theorem tokens_maximal_runs {path : String} {text : List Char} (limit : Nat)
    {consumed : List Char} {s : Source} (stands : s.Stands path consumed)
    (split : text = consumed ++ s.unread)
    (enough : s.unread.length ≤ limit)
    (edge : ∀ i, i + 1 = consumed.length → FilledAt text i →
      ¬ FilledAt text consumed.length) :
    ∃ runs : List Stretch,
      s.tokens limit = runs.map (Stretch.token path text) ∧
      runs.Pairwise (fun r r' => r.start < r'.start) ∧
      ∀ r, r ∈ runs ↔ MaximalRun text r ∧ consumed.length ≤ r.start := by
  induction limit generalizing consumed s with
  | zero =>
    have ended : s.unread = [] := List.length_eq_zero_iff.1 (by omega)
    refine ⟨[], rfl, .nil, fun r => ⟨nofun, fun ⟨maximal, low⟩ => ?_⟩⟩
    have empty : ∀ c ∈ ([] : List Char), isBlank c = true := nofun
    exact absurd low (not_maximalRun_of_blanks empty (ended ▸ split) maximal)
  | succ limit ih =>
    obtain ⟨passed, hands, unread, behind⟩ := Source.nextToken_hands stands
    unfold Source.tokens
    generalize s.nextToken = read at hands unread behind
    obtain ⟨token, s'⟩ := read
    dsimp only at hands unread behind
    generalize hleft : s.unread = left at hands
    cases hands with
    | noToken empty =>
      refine ⟨[], rfl, .nil, fun r => ⟨nofun, fun ⟨maximal, low⟩ => ?_⟩⟩
      exact absurd low
        (not_maximalRun_of_blanks empty (hleft ▸ split) maximal)
    | @token blanks run rest empty something filled apart =>
      have whole : text = consumed ++ (blanks ++ (run ++ rest)) := by
        rw [split, hleft]
      have rest_eq : s'.unread = rest := by
        have same := unread.symm.trans hleft
        rw [← List.append_assoc] at same
        exact List.append_cancel_left same
      have length : (consumed ++ (blanks ++ run)).length =
          consumed.length + blanks.length + run.length := by
        simp only [List.length_append, Nat.add_assoc]
      have shorter : s'.unread.length ≤ limit := by
        have positive : 0 < run.length := List.length_pos_iff.2 something
        rw [hleft] at enough
        simp only [List.length_append] at enough
        rw [rest_eq]
        omega
      have split' : text = (consumed ++ (blanks ++ run)) ++ s'.unread := by
        rw [whole, rest_eq]
        simp only [List.append_assoc]
      have edge' : ¬ FilledAt text (consumed ++ (blanks ++ run)).length := by
        rw [split']
        exact not_filledAt_of_apart (rest_eq ▸ apart)
      obtain ⟨runs, tokens, sorted, members⟩ := ih behind split' shorter
        fun _ _ _ => edge'
      rw [length] at members
      refine ⟨⟨consumed.length + blanks.length,
        consumed.length + blanks.length + run.length⟩ :: runs, ?_, ?_, ?_⟩
      · rw [List.map_cons, token_of_split path whole, ← tokens]
      · refine .cons (fun r mem => ?_) sorted
        have positive : 0 < run.length := List.length_pos_iff.2 something
        have later := ((members r).1 mem).2
        show consumed.length + blanks.length < r.start
        omega
      · intro r
        rw [List.mem_cons, members,
          maximalRun_of_split empty something filled apart whole edge]

/-- The source that reads a text stands at its start. -/
theorem Source.stands_ofText (path text : String) :
    (Source.ofText path text).Stands path [] := ⟨rfl, rfl⟩

/-- **Tokenizing is exact and located.**  The tokens of a text are its maximal
runs without blanks, from left to right, none left out and none twice, each
with the place behind the characters before it.  And after any requests
whatever, what has been passed and what is unread are the text, the cursor
reports the place behind what has been passed, and the next request hands out
what it should. -/
theorem tokenize_maximal_runs (path text : String) :
    (∃ runs : List Stretch,
      tokenize path text = runs.map (Stretch.token path text.toList) ∧
      runs.Pairwise (fun r r' => r.start < r'.start) ∧
      ∀ r, r ∈ runs ↔ MaximalRun text.toList r) ∧
    ∀ requests : List Source.Request,
      ∃ consumed,
        consumed ++ ((Source.ofText path text).after requests).unread =
          text.toList ∧
        ((Source.ofText path text).after requests).location =
          placeAfter path consumed ∧
        ∀ request, ∃ passed,
          Source.Hands path consumed
            ((Source.ofText path text).after requests).unread request
            (((Source.ofText path text).after requests).ask request).1
            passed ∧
          passed ++
              (((Source.ofText path text).after requests).ask
                request).2.unread =
            ((Source.ofText path text).after requests).unread := by
  have stands := Source.stands_ofText path text
  have whole := Source.unread_ofText path text
  constructor
  · have enough : (Source.ofText path text).unread.length ≤ text.length :=
      Nat.le_of_eq (by rw [whole, String.length_toList])
    obtain ⟨runs, tokens, sorted, members⟩ := tokens_maximal_runs
      text.length stands whole.symm enough nofun
    exact ⟨runs, tokens, sorted, fun r =>
      (members r).trans (and_iff_left (Nat.zero_le _))⟩
  · intro requests
    obtain ⟨consumed, split, behind⟩ := Source.after_stands stands requests
    refine ⟨consumed, split.symm.trans whole, behind.place, fun request => ?_⟩
    obtain ⟨passed, hands, split', _⟩ := Source.ask_hands behind request
    exact ⟨passed, hands, split'.symm⟩

end Forth
