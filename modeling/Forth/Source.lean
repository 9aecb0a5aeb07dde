import Forth.Location
import Forth.Text.ByteLines

/-!
# Sources of characters

A source is a cursor in the characters that were read last: the place it
stands at, those characters, and how many of them have been handed out.
Either they are the whole text, or they are one line, and behind them come
bytes that nobody has read yet.  Asking such a reader for a character when
none is at hand reads the next line (`fill`).  Once no byte is left, or a line
that encodes no text has been met, nothing more is read.

Being fed by lines shows in two more ways: a prompt may be due before each
line that is read, and `discardLine` gives up what is at hand, where a whole
text gives up everything through the next newline.

What a source hands out is decided by the characters at hand and by the bytes
behind them, one line at a time.  What it comes to in the end is the text that
is `unread`: those characters, and then the text of the lines to come.  That
is a notion of the theory only, no operation looks at it.

Main statements: reading the next line moves nothing (`unread_fill`,
`location_fill`), and if nothing is at hand then, nothing is left
(`unread_of_atHand_fill`).  So the characters of the unread text are handed
out one by one (`peek_eq`, `next_of_cons`, `next_of_nil`, `takeWhile_eq`).
-/

namespace Forth

/-- Something a feed has to tell the world while it fetches a line. -/
inductive Notice where
  | prompted (text : String)
  | readFailed
deriving DecidableEq, Repr

/-- The state of a feed by lines. -/
structure LineFeed where
  /-- The bytes that have not been read yet. -/
  bytes : List UInt8
  /-- Set once no byte was left or reading failed; nothing is read from then
  on. -/
  exhausted : Bool
  promptText : Option String
  /-- What fetching has brought up and nobody has collected, oldest first. -/
  notices : List Notice
deriving DecidableEq, Repr

/-- How the characters of a source arrive. -/
inductive Feed where
  | whole
  | lines (state : LineFeed)
deriving DecidableEq, Repr

/-- A cursor in a text. -/
structure Source where
  /-- The place of the next character. -/
  location : Location
  /-- The characters that were read last: the whole text, or a line. -/
  chars : Array Char
  /-- The index of the next of them. -/
  position : Nat
  feed : Feed
deriving DecidableEq, Repr

/-- The number of characters through the first newline, or through the end. -/
def lineLength : List Char → Nat
  | [] => 0
  | c :: cs => if c = '\n' then 1 else lineLength cs + 1

namespace LineFeed

/-- The prompt that precedes a fetch. -/
def prompt (f : LineFeed) : List Notice :=
  (f.promptText.map Notice.prompted).toList

/-- Fetch the next line, after the prompt.  Whether it is the end that is met
or a line that is no text, the feed is exhausted then. -/
def fetch (f : LineFeed) : Option (List Char) × LineFeed :=
  let notices := f.notices ++ f.prompt
  match readLine f.bytes with
  | (.ended, rest) =>
    (none, { f with bytes := rest, exhausted := true, notices })
  | (.line text, rest) => (some text, { f with bytes := rest, notices })
  | (.failed, rest) =>
    (none, { f with
      bytes := rest, exhausted := true, notices := notices ++ [.readFailed] })

/-- The text of the lines that are still to come. -/
def pending (f : LineFeed) : List Char :=
  if f.exhausted then [] else textOf f.bytes

end LineFeed

/-- The text that is still to come behind the characters at hand. -/
def Feed.pending : Feed → List Char
  | .whole => []
  | .lines f => f.pending

/-- The number of bytes that have not been read. -/
def Feed.supply : Feed → Nat
  | .whole => 0
  | .lines f => f.bytes.length

namespace Source

/-- A text that is all there. -/
def ofText (path text : String) : Source :=
  ⟨.start path, text.toList.toArray, 0, .whole⟩

/-- The source that a machine reads until it is given another. -/
def empty : Source := ofText "<empty>" ""

/-- Bytes that are fed by lines, with an optional prompt before each. -/
def ofBytes (path : String) (bytes : ByteArray)
    (promptText : Option String) : Source :=
  ⟨.start path, #[], 0, .lines ⟨bytes.toList, false, promptText, []⟩⟩

/-- The characters that were read and have not been handed out. -/
def atHand (s : Source) : List Char := s.chars.toList.drop s.position

/-- The text that has not been handed out. -/
def unread (s : Source) : List Char := s.atHand ++ s.feed.pending

/-- Make sure that the next character is at hand, if there is one.  A line
that is fetched is never empty, so there is no need to look again. -/
def fill (s : Source) : Source :=
  match s.feed with
  | .whole => s
  | .lines f =>
    if s.position < s.chars.size ∨ f.exhausted then s
    else match f.fetch with
      | (none, f) => { s with feed := .lines f }
      | (some text, f) =>
        { s with chars := text.toArray, position := 0, feed := .lines f }

/-- The next character, which stays unread. -/
def peek (s : Source) : Option Char × Source :=
  let s := s.fill
  (s.chars[s.position]?, s)

/-- Pass over a character that is at hand. -/
def pass (s : Source) (c : Char) : Source :=
  { s with location := s.location.advance c, position := s.position + 1 }

/-- Hand out the next character. -/
def next (s : Source) : Option Char × Source :=
  match s.peek with
  | (none, s) => (none, s)
  | (some c, s) => (some c, s.pass c)

/-- Pass over a number of characters that are at hand. -/
def drop (s : Source) (count : Nat) : Source :=
  { s with
    location := s.location.advanceOver (s.atHand.take count)
    position := s.position + count }

/-- Give up the rest of the line.  Of a text that is fed by lines this is what
is at hand, and nothing is fetched for it. -/
def discardLine (s : Source) : Source :=
  match s.feed with
  | .whole => s.drop (lineLength s.atHand)
  | .lines _ => s.drop s.atHand.length

/-- Collect what fetching lines has brought up. -/
def takeNotices (s : Source) : List Notice × Source :=
  match s.feed with
  | .whole => ([], s)
  | .lines f => (f.notices, { s with feed := .lines { f with notices := [] } })

/-- A bound for the characters still to come: those at hand, and one for each
byte that has not been read. -/
def supply (s : Source) : Nat := s.atHand.length + s.feed.supply

end Source

namespace LineFeed

variable {f : LineFeed}

/-- A fetch gives the next line of the text to come, or there is none to
come. -/
theorem fetch_cases (pending : f.exhausted = false) :
    f.pending = [] ∧ (∃ g, f.fetch = (none, g) ∧ g.exhausted = true ∧
      g.bytes = (readLine f.bytes).2) ∨
    ∃ cs g, f.fetch = (some cs, g) ∧ (readLine f.bytes).1 = .line cs ∧
      g.bytes = (readLine f.bytes).2 ∧ f.pending = cs ++ g.pending := by
  have text : f.pending = textOf f.bytes := by
    rw [LineFeed.pending, pending]
    rfl
  rw [text, textOf_readLine, fetch]
  rcases readLine f.bytes with ⟨_ | cs | _, rest⟩
  · exact .inl ⟨rfl, _, rfl, rfl, rfl⟩
  · refine .inr ⟨cs, _, rfl, rfl, rfl, ?_⟩
    rw [LineFeed.pending, pending]
    rfl
  · exact .inl ⟨rfl, _, rfl, rfl, rfl⟩

end LineFeed

namespace Source

variable {s : Source} {c : Char} {cs : List Char}

/-! ## What filling does -/

/-- The characters at hand begin with the one at the position. -/
theorem head?_atHand (s : Source) : s.atHand.head? = s.chars[s.position]? := by
  rw [atHand, List.head?_drop, Array.getElem?_toList]

/-- Nothing is at hand if all characters have been handed out. -/
theorem atHand_eq_nil_iff : s.atHand = [] ↔ s.chars.size ≤ s.position := by
  rw [atHand, List.drop_eq_nil_iff, Array.length_toList]

/-- What filling can do.  It leaves a source that has something at hand or
nothing to come.  Else it finds the end, or fetches the next line. -/
theorem fill_cases (s : Source) :
    s.fill = s ∧ (s.atHand = [] → s.feed.pending = []) ∨
    s.atHand = [] ∧ ∃ f g, s.feed = .lines f ∧ f.exhausted = false ∧
      g.bytes = (readLine f.bytes).2 ∧
      (f.pending = [] ∧ g.exhausted = true ∧
          s.fill = { s with feed := .lines g } ∨
        ∃ cs, (readLine f.bytes).1 = .line cs ∧
          f.pending = cs ++ g.pending ∧
          s.fill = { s with
            chars := cs.toArray, position := 0, feed := .lines g }) := by
  unfold fill
  split
  · next whole => exact .inl ⟨rfl, fun _ => by rw [whole]; rfl⟩
  · next f lines =>
    by_cases enough : s.position < s.chars.size ∨ f.exhausted = true
    · rw [if_pos enough]
      refine .inl ⟨rfl, fun none => ?_⟩
      have behind := atHand_eq_nil_iff.1 none
      have exhausted := enough.resolve_left (Nat.not_lt.2 behind)
      rw [lines, Feed.pending, LineFeed.pending, if_pos exhausted]
    · rw [if_neg enough]
      obtain ⟨behind, pending⟩ := not_or.1 enough
      have none := atHand_eq_nil_iff.2 (Nat.not_lt.1 behind)
      replace pending := Bool.eq_false_iff.2 pending
      refine .inr ⟨none, f, ?_⟩
      rcases LineFeed.fetch_cases pending with
        ⟨ended, g, fetched, exhausted, rest⟩ |
        ⟨cs, g, fetched, line, rest, text⟩
      · rw [fetched]
        exact ⟨g, lines, pending, rest, .inl ⟨ended, exhausted, rfl⟩⟩
      · rw [fetched]
        exact ⟨g, lines, pending, rest, .inr ⟨cs, line, text, rfl⟩⟩

/-- Asking for more moves nothing. -/
@[simp] theorem location_fill (s : Source) :
    s.fill.location = s.location := by
  rcases s.fill_cases with
    ⟨still, _⟩ | ⟨_, _, _, _, _, _, ⟨_, _, filled⟩ | ⟨_, _, _, filled⟩⟩
  · rw [still]
  · rw [filled]
  · rw [filled]

@[simp] theorem unread_fill (s : Source) : s.fill.unread = s.unread := by
  rcases s.fill_cases with
    ⟨still, _⟩ | ⟨none, f, g, lines, _, _,
      ⟨ended, exhausted, filled⟩ | ⟨cs, _, text, filled⟩⟩
  · rw [still]
  · rw [filled, unread, unread, lines]
    show s.atHand ++ g.pending = s.atHand ++ f.pending
    rw [ended, LineFeed.pending, if_pos exhausted]
  · rw [filled, unread, unread, lines, none]
    exact text.symm

/-- If nothing is at hand even then, nothing is left. -/
theorem unread_of_atHand_fill (none : s.fill.atHand = []) :
    s.unread = [] := by
  rcases s.fill_cases with
    ⟨still, rest⟩ | ⟨before, f, g, lines, _, _,
      ⟨ended, _⟩ | ⟨cs, line, _, filled⟩⟩
  · rw [still] at none
    rw [unread, none, rest none]
    rfl
  · rw [unread, before, lines]
    exact ended
  · rw [filled] at none
    exact absurd none (encoded_of_readLine line).2

/-- A text that is there as a whole has all of it at hand. -/
theorem unread_of_whole (whole : s.feed = .whole) : s.unread = s.atHand := by
  rw [unread, whole, Feed.pending, List.append_nil]

/-- There is nothing to fetch for it. -/
theorem fill_of_whole (whole : s.feed = .whole) : s.fill = s := by
  rw [fill, whole]

@[simp] theorem unread_ofText (path text : String) :
    (ofText path text).unread = text.toList :=
  List.append_nil _

/-- So the next character is at hand when there is one. -/
theorem atHand_fill (h : s.unread = c :: cs) :
    ∃ rest, s.fill.atHand = c :: rest ∧ cs = rest ++ s.fill.feed.pending := by
  have text := s.unread_fill.trans h
  unfold unread at text
  cases hand : s.fill.atHand with
  | nil =>
    rw [unread_of_atHand_fill hand] at h
    cases h
  | cons d rest =>
    rw [hand, List.cons_append] at text
    obtain ⟨rfl, rfl⟩ := List.cons.inj text
    exact ⟨rest, rfl, rfl⟩

theorem head?_fill (s : Source) : s.fill.atHand.head? = s.unread.head? := by
  cases h : s.unread with
  | nil =>
    have text := s.unread_fill.trans h
    rw [(List.append_eq_nil_iff.1 text).1]
  | cons c cs =>
    obtain ⟨rest, hand, _⟩ := atHand_fill h
    rw [hand]
    rfl

/-- While something is at hand nothing is fetched. -/
theorem fill_of_atHand {rest : List Char} (h : s.atHand = c :: rest) :
    s.fill = s := by
  rcases s.fill_cases with ⟨still, _⟩ | ⟨none, _⟩
  · exact still
  · rw [none] at h
    cases h

/-- Filling again does nothing. -/
@[simp] theorem fill_fill (s : Source) : s.fill.fill = s.fill := by
  rcases s.fill_cases with
    ⟨still, _⟩ | ⟨_, _, g, _, _, _, ⟨_, exhausted, filled⟩ |
      ⟨cs, line, _, filled⟩⟩
  · rw [still]
    exact still
  · rw [filled, fill]
    exact if_pos (.inr exhausted)
  · obtain ⟨c, rest, rfl⟩ :=
      List.exists_cons_of_ne_nil (encoded_of_readLine line).2
    rw [filled]
    exact fill_of_atHand rfl

/-! ## Handing out characters -/

/-- The next character of the text is shown. -/
theorem peek_eq (s : Source) : s.peek = (s.unread.head?, s.fill) := by
  rw [← head?_fill, head?_atHand]
  rfl

/-- At the end nothing is handed out and the cursor stays. -/
theorem next_of_nil (h : s.unread = []) : s.next = (none, s.fill) := by
  rw [next, peek_eq, h]
  rfl

/-- Before the end the next character is handed out. -/
theorem next_of_cons (h : s.unread = c :: cs) :
    s.next = (some c, s.fill.pass c) := by
  rw [next, peek_eq, h]
  rfl

/-- Behind a character that is at hand the others are. -/
theorem atHand_pass {rest : List Char} (h : s.atHand = c :: rest) :
    (s.pass c).atHand = rest := by
  show s.chars.toList.drop (s.position + 1) = rest
  rw [← List.drop_drop, ← atHand, h]
  rfl

/-- The character is handed out of the text. -/
theorem unread_pass (h : s.unread = c :: cs) :
    (s.fill.pass c).unread = cs := by
  obtain ⟨rest, hand, rfl⟩ := atHand_fill h
  rw [unread, atHand_pass hand]
  rfl

@[simp] theorem location_pass (s : Source) (c : Char) :
    (s.pass c).location = s.location.advance c := rfl

@[simp] theorem feed_pass (s : Source) (c : Char) :
    (s.pass c).feed = s.feed := rfl

/-- Of several characters those behind them stay. -/
theorem atHand_drop (s : Source) (count : Nat) :
    (s.drop count).atHand = s.atHand.drop count := by
  show s.chars.toList.drop (s.position + count) = s.atHand.drop count
  rw [atHand, List.drop_drop]

/-- Passing over characters at hand. -/
theorem unread_drop {count : Nat} (enough : count ≤ s.atHand.length) :
    (s.drop count).unread = s.unread.drop count := by
  rw [unread, unread, atHand_drop, List.drop_append_of_le_length enough]
  rfl

theorem location_drop {count : Nat} (enough : count ≤ s.atHand.length) :
    (s.drop count).location = s.location.advanceOver (s.unread.take count) := by
  rw [unread, List.take_append_of_le_length enough]
  rfl

theorem unread_drop_of_whole (whole : s.feed = .whole) (count : Nat) :
    (s.drop count).unread = s.unread.drop count := by
  rw [unread_of_whole (s := s.drop count) whole, atHand_drop,
    unread_of_whole whole]

/-- Of a text that is there as a whole everything through the newline is given
up. -/
theorem discardLine_of_whole (whole : s.feed = .whole) :
    s.discardLine = s.drop (lineLength s.unread) := by
  rw [discardLine, whole, unread_of_whole whole]

/-- Of lines what is at hand is given up. -/
theorem discardLine_of_lines {f : LineFeed} (lines : s.feed = .lines f) :
    s.discardLine = s.drop s.atHand.length := by
  rw [discardLine, lines]

/-! ## Taking characters by a test -/

/-- A fetch adds no more characters than it takes bytes. -/
theorem supply_fill (s : Source) : s.fill.supply ≤ s.supply := by
  rcases s.fill_cases with
    ⟨still, _⟩ | ⟨none, f, g, lines, _, left,
      ⟨_, _, filled⟩ | ⟨cs, line, _, filled⟩⟩
  · exact Nat.le_of_eq (congrArg supply still)
  · have whole := congrArg List.length (cutLine_append f.bytes)
    rw [List.length_append] at whole
    rw [filled, supply, supply, lines]
    show s.atHand.length + g.bytes.length ≤ s.atHand.length + f.bytes.length
    rw [left]
    show _ + (cutLine f.bytes).2.length ≤ _
    omega
  · rw [filled, supply, supply, lines, none]
    show cs.length + g.bytes.length ≤ 0 + f.bytes.length
    rw [left, Nat.zero_add]
    exact length_readLine line

/-- There are no more characters to come than the bound says. -/
theorem length_unread_le (s : Source) : s.unread.length ≤ s.supply := by
  rw [unread, supply, List.length_append]
  refine Nat.add_le_add_left ?_ _
  cases s.feed with
  | whole => exact Nat.le_refl 0
  | lines f =>
    show f.pending.length ≤ f.bytes.length
    unfold LineFeed.pending
    split
    · exact Nat.zero_le _
    · exact length_textOf f.bytes

/-- A character that is handed out is one less. -/
theorem supply_next {t : Source} (look : s.peek = (some c, t)) :
    t.next.2.supply < s.supply := by
  rw [peek_eq] at look
  obtain ⟨first, rfl⟩ := Prod.mk.inj look
  obtain ⟨cs, text⟩ := List.head?_eq_some_iff.1 first
  obtain ⟨rest, hand, _⟩ := atHand_fill text
  rw [next_of_cons (s.unread_fill.trans text), fill_of_atHand hand]
  refine Nat.lt_of_lt_of_le ?_ s.supply_fill
  rw [supply, supply, atHand_pass hand, hand, List.length_cons, feed_pass]
  omega

/-- Hand out the characters that satisfy a test, up to the first that does
not.  That one is at hand afterwards, and stays unread. -/
def takeWhile (s : Source) (p : Char → Bool) : List Char × Source :=
  match _look : s.peek with
  | (none, t) => ([], t)
  | (some c, t) =>
    if p c then
      let (taken, rest) := takeWhile t.next.2 p
      (c :: taken, rest)
    else ([], t)
termination_by s.supply
decreasing_by exact supply_next _look

/-- At the end nothing is taken. -/
theorem takeWhile_of_nil (h : s.unread = []) (p : Char → Bool) :
    s.takeWhile p = ([], s.fill) := by
  have look : s.peek = (none, s.fill) := by
    rw [peek_eq, h]
    rfl
  rw [takeWhile]
  split
  · next t shown =>
    rw [look] at shown
    cases shown
    rfl
  · next c t shown =>
    rw [look] at shown
    cases shown

/-- Before the end the test decides about the next character. -/
theorem takeWhile_of_cons (h : s.unread = c :: cs) (p : Char → Bool) :
    s.takeWhile p =
      if p c then
        (c :: ((s.fill.pass c).takeWhile p).1, ((s.fill.pass c).takeWhile p).2)
      else ([], s.fill) := by
  have look : s.peek = (some c, s.fill) := by
    rw [peek_eq, h]
    rfl
  obtain ⟨rest, hand, _⟩ := atHand_fill h
  have handed : s.fill.next = (some c, s.fill.pass c) := by
    rw [next_of_cons (s.unread_fill.trans h), fill_of_atHand hand]
  rw [takeWhile]
  split
  · next t shown =>
    rw [look] at shown
    cases shown
  · next d t shown =>
    rw [look] at shown
    cases shown
    rw [handed]

/-- **Exactly the longest stretch that satisfies the test is taken.**  What
stays unread begins with the first character that fails it, and there the
cursor stands. -/
theorem takeWhile_spec (s : Source) (p : Char → Bool) :
    (s.takeWhile p).1 = s.unread.takeWhile p ∧
      (s.takeWhile p).2.unread = s.unread.dropWhile p ∧
      (s.takeWhile p).2.location =
        s.location.advanceOver (s.unread.takeWhile p) := by
  generalize text : s.unread = unread
  induction unread generalizing s with
  | nil =>
    rw [takeWhile_of_nil text]
    exact ⟨rfl, s.unread_fill.trans text, s.location_fill⟩
  | cons c cs ih =>
    rw [takeWhile_of_cons text]
    by_cases pass : p c = true
    · obtain ⟨taken, left, place⟩ := ih _ (unread_pass text)
      rw [if_pos pass, List.takeWhile_cons_of_pos pass,
        List.dropWhile_cons_of_pos pass]
      refine ⟨congrArg (c :: ·) taken, left, ?_⟩
      rw [place, location_pass, location_fill, Location.advanceOver_cons]
    · rw [if_neg pass, List.takeWhile_cons_of_neg pass,
        List.dropWhile_cons_of_neg pass]
      exact ⟨rfl, s.unread_fill.trans text, s.location_fill⟩

/-- The source behind what is taken has been passed over character by
character, and then filled. -/
theorem takeWhile_ends {motive : Source → Prop} (p : Char → Bool)
    (pass : ∀ s c cs, s.unread = c :: cs → motive s → motive (s.fill.pass c))
    (h : motive s) : ∃ t, motive t ∧ (s.takeWhile p).2 = t.fill := by
  generalize text : s.unread = unread
  induction unread generalizing s with
  | nil =>
    rw [takeWhile_of_nil text]
    exact ⟨s, h, rfl⟩
  | cons c cs ih =>
    rw [takeWhile_of_cons text]
    by_cases passes : p c = true
    · rw [if_pos passes]
      exact ih (pass s c cs text h) (unread_pass text)
    · rw [if_neg passes]
      exact ⟨s, h, rfl⟩

/-- So the next character is at hand then. -/
theorem fill_takeWhile (s : Source) (p : Char → Bool) :
    (s.takeWhile p).2.fill = (s.takeWhile p).2 := by
  obtain ⟨t, _, filled⟩ := takeWhile_ends (motive := fun _ => True) (s := s) p
    (fun _ _ _ _ _ => trivial) trivial
  rw [filled, fill_fill]

end Source

end Forth
