import Forth.Proofs.Tokens
import Mathlib.Data.List.Induction

/-!
# What a source is asked for

A source can be asked for four things: to show the next character, to hand it
out, to hand out a token, and to give up the rest of the line.  Asking for one
thing after the other leaves a cursor somewhere in the text, and the place
that the cursor reports is a function of the characters it has passed:
`placeAfter` says which, by counting, and `advanceOver_start` that moving over
the characters one by one comes to the same.

What each request hands out and what it passes over is said by `Hands`, in
terms of the characters passed and those unread, and without the operations of
a source.  Main statement: `ask_hands`.  A source that is there as a whole
does what `Hands` says, from wherever its cursor stands, and that may be the
middle of a token.
-/

namespace Forth

/-- The place behind the first characters of a text.  The line is one more
than the newlines among them, the column one more than the characters since
the last newline. -/
def placeAfter (path : String) (before : List Char) : Location where
  path := path
  line := 1 + before.count '\n'
  column := 1 + (before.reverse.takeWhile (· != '\n')).length

/-- The place behind one more character. -/
theorem placeAfter_append_singleton (path : String) (before : List Char)
    (c : Char) :
    placeAfter path (before ++ [c]) = (placeAfter path before).advance c := by
  unfold placeAfter Location.advance
  by_cases newline : c = '\n'
  · simp [newline, Nat.add_assoc]
  · simp [newline, Nat.add_comm 1]

/-- Moving over characters one by one from the first place of a text leads to
the place behind them. -/
theorem advanceOver_start (path : String) (cs : List Char) :
    (Location.start path).advanceOver cs = placeAfter path cs := by
  induction cs using List.reverseRecOn with
  | nil => rfl
  | append_singleton cs c ih =>
    rw [Location.advanceOver_append, ih, placeAfter_append_singleton]
    rfl

/-- So the place behind two stretches is the place behind the first, moved
over the second. -/
theorem placeAfter_append (path : String) (cs ds : List Char) :
    placeAfter path (cs ++ ds) = (placeAfter path cs).advanceOver ds := by
  rw [← advanceOver_start, ← advanceOver_start, Location.advanceOver_append]

namespace Source

/-- What a source can be asked for. -/
inductive Request where
  /-- The next character, which stays unread. -/
  | peek
  /-- The next character. -/
  | next
  /-- The next token. -/
  | token
  /-- That the rest of the line is given up. -/
  | discard
deriving DecidableEq, Repr

/-- What a source answers. -/
inductive Answer where
  | char (c : Option Char)
  | token (t : Option Token)
  | done
deriving DecidableEq, Repr

/-- Ask a source for something. -/
def ask (s : Source) : Request → Answer × Source
  | .peek => (.char s.peek.1, s.peek.2)
  | .next => (.char s.next.1, s.next.2)
  | .token => (.token s.nextToken.1, s.nextToken.2)
  | .discard => (.done, s.discardLine)

/-- The source that is left after some requests. -/
def after (s : Source) (requests : List Request) : Source :=
  requests.foldl (fun s request => (s.ask request).2) s

/-- What some requests are answered, each with the place at which the cursor
stands then. -/
def transcript : Source → List Request → List (Answer × Location)
  | _, [] => []
  | s, request :: requests =>
    ((s.ask request).1, (s.ask request).2.location) ::
      (s.ask request).2.transcript requests

theorem after_cons (s : Source) (request : Request)
    (requests : List Request) :
    s.after (request :: requests) = (s.ask request).2.after requests := rfl

/-- What a request hands out and which characters it passes over, for a
cursor between the characters `consumed` and `unread` of a text. -/
inductive Hands (path : String) (consumed : List Char) :
    List Char → Request → Answer → List Char → Prop
  | peek {unread : List Char} :
      Hands path consumed unread .peek (.char unread.head?) []
  | next {unread : List Char} :
      Hands path consumed unread .next (.char unread.head?) (unread.take 1)
  /-- Nothing but blanks is left. -/
  | noToken {blanks : List Char} (empty : ∀ c ∈ blanks, isBlank c = true) :
      Hands path consumed blanks .token (.token none) blanks
  /-- The token goes from the first character that is not blank up to the
  next blank or the end. -/
  | token {blanks run rest : List Char}
      (empty : ∀ c ∈ blanks, isBlank c = true) (something : run ≠ [])
      (filled : ∀ c ∈ run, isBlank c = false)
      (apart : ∀ c ∈ rest.head?, isBlank c = true) :
      Hands path consumed (blanks ++ (run ++ rest)) .token
        (.token (some ⟨placeAfter path (consumed ++ blanks),
          String.ofList run⟩))
        (blanks ++ run)
  /-- A line goes through its newline. -/
  | line {line rest : List Char} (within : '\n' ∉ line) :
      Hands path consumed (line ++ '\n' :: rest) .discard .done
        (line ++ ['\n'])
  /-- The last line may have none. -/
  | lastLine {line : List Char} (within : '\n' ∉ line) :
      Hands path consumed line .discard .done line

/-- A cursor that stands behind the first characters of a text. -/
structure Stands (path : String) (consumed : List Char) (s : Source) :
    Prop where
  place : s.location = placeAfter path consumed
  whole : s.feed = .whole

variable {s : Source} {path : String} {consumed : List Char}

/-- A cursor that has passed over a character stands behind it. -/
theorem Stands.pass (h : Stands path consumed s) (c : Char) :
    Stands path (consumed ++ [c]) (s.pass c) where
  place := by rw [placeAfter_append_singleton, ← h.place]; rfl
  whole := h.whole

/-- A cursor that has passed over several stands behind them. -/
theorem Stands.drop (h : Stands path consumed s) (count : Nat) :
    Stands path (consumed ++ s.unread.take count) (s.drop count) where
  place := by
    rw [placeAfter_append, ← h.place, unread_of_whole h.whole]
    rfl
  whole := h.whole

/-- So does one that has taken the characters up to the first that fails a
test. -/
theorem Stands.takes {p : Char → Bool} {taken rest : List Char}
    (h : Stands path consumed s) (unread : s.unread = taken ++ rest)
    (pass : ∀ c ∈ taken, p c = true)
    (stop : ∀ c ∈ rest.head?, p c = false) :
    (s.takeWhile p).1 = taken ∧ (s.takeWhile p).2.unread = rest ∧
      Stands path (consumed ++ taken) (s.takeWhile p).2 := by
  obtain ⟨first, left, whole⟩ := takeWhile_of_append h.whole unread pass stop
  obtain ⟨_, _, moved⟩ := takeWhile_of_split unread pass stop
  refine ⟨first, left, ?_, whole⟩
  rw [placeAfter_append, ← h.place]
  exact moved

/-- The characters through the first newline. -/
theorem take_lineLength_of_mem {cs : List Char} (newline : '\n' ∈ cs) :
    ∃ line rest, '\n' ∉ line ∧ cs = line ++ '\n' :: rest ∧
      cs.take (lineLength cs) = line ++ ['\n'] := by
  induction cs with
  | nil => cases newline
  | cons c cs ih =>
    by_cases here : c = '\n'
    · exact ⟨[], cs, by simp, by simp [here], by simp [lineLength, here]⟩
    · have later : '\n' ∈ cs :=
        (List.mem_cons.1 newline).resolve_left (Ne.symm here)
      obtain ⟨line, rest, within, split, taken⟩ := ih later
      refine ⟨c :: line, rest, ?_, by rw [split]; rfl, ?_⟩
      · simp [Ne.symm here, within]
      · simp [lineLength, here, taken]

/-- Without a newline the line goes through the end. -/
theorem lineLength_of_not_mem {cs : List Char} (within : '\n' ∉ cs) :
    lineLength cs = cs.length := by
  induction cs with
  | nil => rfl
  | cons c cs ih =>
    obtain ⟨here, later⟩ : '\n' ≠ c ∧ '\n' ∉ cs := by simpa using within
    rw [lineLength, if_neg (Ne.symm here), ih later, List.length_cons]

/-- Asking for a token. -/
theorem nextToken_hands (h : Stands path consumed s) :
    ∃ passed, Hands path consumed s.unread .token (.token s.nextToken.1)
        passed ∧
      s.unread = passed ++ s.nextToken.2.unread ∧
      Stands path (consumed ++ passed) s.nextToken.2 := by
  rw [nextToken_eq]
  dsimp only
  rcases blank_or_token s.unread with
    empty | ⟨blanks, run, rest, split, empty, something, filled, apart⟩
  · obtain ⟨_, left, stands⟩ := h.takes (List.append_nil _).symm empty nofun
    rw [left]
    exact ⟨s.unread, .noToken empty, by rw [left, List.append_nil], stands⟩
  · obtain ⟨c, cs, rfl⟩ := List.exists_cons_of_ne_nil something
    obtain ⟨_, atToken, stands⟩ := h.takes split empty (by
      intro d hd
      cases hd
      exact filled c List.mem_cons_self)
    obtain ⟨taken, left, behind⟩ := stands.takes
      (p := fun c => !isBlank c) atToken
      (fun d hd => by simp [filled d hd]) (fun d hd => by simp [apart d hd])
    rw [atToken]
    dsimp only [List.cons_append]
    rw [taken, stands.place]
    refine ⟨blanks ++ (c :: cs), ?_, ?_, ?_⟩
    · rw [split]
      exact .token empty something filled apart
    · rw [left, split, List.append_assoc]
    · rwa [← List.append_assoc]

/-- **A source that is there as a whole hands out what it should**, from
wherever its cursor stands, and the cursor then stands behind what was
passed. -/
theorem ask_hands (h : Stands path consumed s) (request : Request) :
    ∃ passed, Hands path consumed s.unread request (s.ask request).1
        passed ∧
      s.unread = passed ++ (s.ask request).2.unread ∧
      Stands path (consumed ++ passed) (s.ask request).2 := by
  have still : s.fill = s := fill_of_whole h.whole
  cases request with
  | peek =>
    have shown : s.ask .peek = (.char s.unread.head?, s) := by
      unfold ask
      rw [peek_eq, still]
    rw [shown]
    refine ⟨[], .peek, rfl, ?_⟩
    rwa [List.append_nil]
  | next =>
    cases unread : s.unread with
    | nil =>
      have nothing : s.ask .next = (.char none, s) := by
        unfold ask
        rw [next_of_nil unread, still]
      rw [nothing]
      refine ⟨[], .next, unread.symm, ?_⟩
      rwa [List.append_nil]
    | cons c cs =>
      have handed : s.ask .next = (.char (some c), s.pass c) := by
        unfold ask
        rw [next_of_cons unread, still]
      have behind := unread_pass unread
      rw [still] at behind
      rw [handed]
      refine ⟨[c], .next, ?_, h.pass c⟩
      show c :: cs = [c] ++ (s.pass c).unread
      rw [behind]
      rfl
  | token => exact nextToken_hands h
  | discard =>
    have dropped := h.drop (lineLength s.unread)
    have given : s.ask .discard = (.done, s.drop (lineLength s.unread)) := by
      unfold ask
      rw [discardLine_of_whole h.whole]
    have split : s.unread = s.unread.take (lineLength s.unread) ++
        (s.drop (lineLength s.unread)).unread := by
      rw [unread_drop_of_whole h.whole, List.take_append_drop]
    rw [given]
    refine ⟨s.unread.take (lineLength s.unread), ?_, split, dropped⟩
    by_cases newline : '\n' ∈ s.unread
    · obtain ⟨line, rest, within, unread, taken⟩ :=
        take_lineLength_of_mem newline
      rw [taken, unread]
      exact .line within
    · rw [lineLength_of_not_mem newline, List.take_length]
      exact .lastLine newline

/-- So do any number of requests, and nothing of the text is lost. -/
theorem after_stands (h : Stands path consumed s) (requests : List Request) :
    ∃ passed, s.unread = passed ++ (s.after requests).unread ∧
      Stands path (consumed ++ passed) (s.after requests) := by
  induction requests generalizing s consumed with
  | nil => exact ⟨[], rfl, by rwa [List.append_nil]⟩
  | cons request requests ih =>
    obtain ⟨first, _, split, stands⟩ := ask_hands h request
    obtain ⟨rest, split', stands'⟩ := ih stands
    refine ⟨first ++ rest, ?_, ?_⟩
    · rw [split, split', List.append_assoc, after_cons]
    · rwa [← List.append_assoc]

end Source

end Forth
