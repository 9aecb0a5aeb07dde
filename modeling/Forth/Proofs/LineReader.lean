import Forth.Proofs.Requests

/-!
# A text that is fed by lines reads as a whole

Bytes can be read line by line, each line decoded when it is fetched, and a
line that is no text ends the input.  Which text is read in this way can be
said without reading: cut the bytes into lines (`Lined`) and take the lines
before the first that encodes no text (`Readable`).

A reader that is fed by lines has nothing or the rest of one line at hand
(`Source.Fits`), and behind it bytes that nobody has read.  A look at the next
character fetches a line if nothing is at hand, so after it the rest of the
line is (`Source.Ready`, `Fits.fill`), and a token is only complete after such
a look at the character behind it.  So a reader that gives up a line directly
after a token gives up the same characters as a source that has the whole text
(`Tracks.ask`), and no other request depends on where the lines end.

`Source.Tracks` relates the two: the same place, and the same text to come, of
which the reader has decoded a line at most.

Main statement: `reader_tracks_text`.
-/

namespace Forth

/-! ## The text of bytes -/

/-- How bytes fall into lines: each goes through its newline, and the last one
may have none. -/
inductive Lined : List UInt8 → List (List UInt8) → Prop
  | nil : Lined [] []
  | last {line : List UInt8} (something : line ≠ []) (within : 10 ∉ line) :
      Lined line [line]
  | cons {line rest : List UInt8} {lines : List (List UInt8)}
      (within : 10 ∉ line) (more : Lined rest lines) :
      Lined (line ++ 10 :: rest) ((line ++ [10]) :: lines)

/-- A text is encoded by the lines of some bytes before the first line that
encodes no text. -/
def Readable (bytes : List UInt8) (text : String) : Prop :=
  ∃ good bad : List (List UInt8), Lined bytes (good ++ bad) ∧
    (∀ line ∈ good, ∃ cs, encoded cs = line) ∧
    (∀ line ∈ bad.head?, ∀ cs, encoded cs ≠ line) ∧
    encoded text.toList = good.flatten

/-- Texts with the same bytes are the same. -/
theorem encoded_injective {cs ds : List Char} (h : encoded cs = encoded ds) :
    cs = ds := by
  have bytes : cs.utf8Encode = ds.utf8Encode := congrArg List.toByteArray h
  rw [← String.toByteArray_ofList, ← String.toByteArray_ofList,
    String.toByteArray_inj] at bytes
  exact String.ofList_injective bytes

namespace Source

/-- Bytes are cut into their lines. -/
theorem lined_byteLines (bytes : List UInt8) :
    Lined bytes (byteLines bytes) := by
  -- By length, since what is left behind a line is shorter.
  induction length : bytes.length using Nat.strongRecOn generalizing bytes
  next n ih =>
  by_cases ended : bytes = []
  · rw [ended]
    exact .nil
  · have whole := cutLine_append bytes
    rw [byteLines_of_ne_nil ended]
    rcases cutLine_cases bytes with ⟨line, within, cut⟩ | ⟨within, last⟩
    · rw [cut] at whole ⊢
      have shorter : (cutLine bytes).2.length < n := by
        have sum := congrArg List.length whole
        simp only [List.length_append, List.length_singleton] at sum
        omega
      have lined := Lined.cons within (ih _ shorter _ rfl)
      rwa [List.append_cons, whole] at lined
    · rw [last, List.append_nil] at whole
      rw [whole] at within
      rw [whole, last]
      exact .last ended within

/-- There is one way to cut bytes into lines. -/
theorem byteLines_of_lined {bytes : List UInt8} {lines : List (List UInt8)}
    (h : Lined bytes lines) : byteLines bytes = lines := by
  induction h with
  | nil => rfl
  | @last line something within =>
    induction line with
    | nil => exact absurd rfl something
    | cons b line ih =>
      obtain ⟨here, later⟩ : 10 ≠ b ∧ 10 ∉ line := by simpa using within
      unfold byteLines
      rw [if_neg (Ne.symm here)]
      cases line with
      | nil => rfl
      | cons b' line => rw [ih (by simp) later]
  | @cons line rest lines within more ih =>
    induction line with
    | nil =>
      show byteLines (10 :: rest) = _
      rw [byteLines, if_pos rfl, ih]
      rfl
    | cons b line ihLine =>
      obtain ⟨here, later⟩ : 10 ≠ b ∧ 10 ∉ line := by simpa using within
      show byteLines (b :: (line ++ 10 :: rest)) = _
      rw [byteLines, if_neg (Ne.symm here), ihLine later]
      rfl

/-- What is decoded is the text of the lines before the first that encodes
none. -/
theorem encoded_decodeLines {good bad : List (List UInt8)}
    (decodes : ∀ line ∈ good, ∃ cs, encoded cs = line)
    (fails : ∀ line ∈ bad.head?, ∀ cs, encoded cs ≠ line) :
    encoded (decodeLines (good ++ bad)) = good.flatten := by
  induction good with
  | nil =>
    cases bad with
    | nil => rfl
    | cons line bad =>
      have undecodable : decodeLine line = none := by
        refine Option.eq_none_iff_forall_ne_some.2 fun cs decoded => ?_
        exact fails line rfl cs (decodeLine_eq_some_iff.1 decoded)
      rw [List.nil_append, decodeLines, undecodable]
      rfl
  | cons line good ih =>
    obtain ⟨⟨cs, hcs⟩, more⟩ := List.forall_mem_cons.1 decodes
    rw [List.cons_append, decodeLines, decodeLine_eq_some_iff.2 hcs]
    dsimp only
    rw [encoded_append, ih more, hcs, List.flatten_cons]

/-- Lines fall into those before the first that encodes no text, and the
rest. -/
theorem exists_good_lines (lines : List (List UInt8)) :
    ∃ good bad, lines = good ++ bad ∧
      (∀ line ∈ good, ∃ cs, encoded cs = line) ∧
      ∀ line ∈ bad.head?, ∀ cs, encoded cs ≠ line := by
  induction lines with
  | nil => exact ⟨[], [], rfl, nofun, nofun⟩
  | cons line lines ih =>
    by_cases decodes : ∃ cs, encoded cs = line
    · obtain ⟨good, bad, split, rest⟩ := ih
      exact ⟨line :: good, bad, by rw [split]; rfl,
        List.forall_mem_cons.2 ⟨decodes, rest.1⟩, rest.2⟩
    · refine ⟨[], line :: lines, rfl, nofun, fun l hl cs same => ?_⟩
      cases hl
      exact decodes ⟨cs, same⟩

/-- The text that is there for a reader is the one that can be read. -/
theorem unread_ofBytes {bytes : ByteArray} {text : String}
    (readable : Readable bytes.toList text) (path : String)
    (promptText : Option String) :
    (ofBytes path bytes promptText).unread = text.toList := by
  obtain ⟨good, bad, lined, decodes, fails, whole⟩ := readable
  show decodeLines (byteLines bytes.toList) = _
  rw [byteLines_of_lined lined]
  exact encoded_injective ((encoded_decodeLines decodes fails).trans
    whole.symm)

/-- Of all bytes some text can be read. -/
theorem exists_readable (bytes : List UInt8) :
    ∃ text, Readable bytes text := by
  obtain ⟨good, bad, split, decodes, fails⟩ :=
    exists_good_lines (byteLines bytes)
  refine ⟨String.ofList (textOf bytes), good, bad,
    split ▸ lined_byteLines bytes, decodes, fails, ?_⟩
  rw [String.toList_ofList, textOf, split]
  exact encoded_decodeLines decodes fails

end Source

/-! ## What is at hand -/

/-- A line is a part of the text. -/
theorem lineLength_le (cs : List Char) : lineLength cs ≤ cs.length := by
  induction cs with
  | nil => exact Nat.le_refl 0
  | cons c cs ih =>
    rw [lineLength, List.length_cons]
    split
    · exact Nat.succ_le_succ (Nat.zero_le _)
    · exact Nat.succ_le_succ ih

/-- A line that ends early ends where it did before. -/
theorem lineLength_append {line : List Char} (within : '\n' ∉ line)
    (rest : List Char) :
    lineLength (line ++ rest) = line.length + lineLength rest := by
  induction line with
  | nil => simp
  | cons c line ih =>
    obtain ⟨here, later⟩ : '\n' ≠ c ∧ '\n' ∉ line := by simpa using within
    rw [List.cons_append, lineLength, if_neg (Ne.symm here), ih later,
      List.length_cons]
    omega

namespace Source

/-- The rest of the line is at hand. -/
structure Ready (s : Source) : Prop where
  lines : ∃ f, s.feed = .lines f
  atHand : s.atHand.length = lineLength s.unread

/-- The reader is fed by lines and stands where nothing or the rest of a line
is at hand. -/
structure Fits (s : Source) : Prop where
  lines : ∃ f, s.feed = .lines f
  atHand : s.atHand = [] ∨ s.atHand.length = lineLength s.unread

theorem Ready.fits {s : Source} (h : s.Ready) : s.Fits :=
  ⟨h.lines, .inr h.atHand⟩

/-- A line that is fetched goes through the first newline of the text. -/
theorem lineLength_of_readLine {bytes : List UInt8} {cs : List Char}
    (read : (readLine bytes).1 = .line cs) :
    lineLength (cs ++ textOf (readLine bytes).2) = cs.length := by
  rcases readLine_cases read with ⟨line, within, rfl⟩ | ⟨within, ended⟩
  · rw [List.append_assoc, lineLength_append within, List.length_append]
    rfl
  · rw [ended, lineLength_append within]
    rfl

/-- After a look at the next character the rest of the line is at hand. -/
theorem Fits.fill {s : Source} (h : s.Fits) : s.fill.Ready := by
  rcases s.fill_cases with
    ⟨still, rest⟩ | ⟨none, f, g, lines, pending, left,
      ⟨ended, _, filled⟩ | ⟨cs, read, text, filled⟩⟩
  · rw [still]
    refine ⟨h.lines, ?_⟩
    rcases h.atHand with none | line
    · rw [unread, none, rest none]
      rfl
    · exact line
  · have text : s.fill.unread = [] := by
      rw [s.unread_fill, unread, none, lines]
      exact ended
    have hand : s.fill.atHand = [] := by
      rw [filled]
      exact none
    exact ⟨⟨g, by rw [filled]⟩, by rw [hand, text]; rfl⟩
  · refine ⟨⟨g, by rw [filled]⟩, ?_⟩
    have fetched := lineLength_of_readLine read
    rw [s.unread_fill, unread, none, lines, filled]
    show cs.length = lineLength f.pending
    rw [LineFeed.pending, pending, textOf_readLine, read]
    exact fetched.symm

/-- The first character of a line is handed out, and the rest is at hand. -/
theorem Ready.pass {s : Source} {c : Char} {cs : List Char} (h : s.Ready)
    (unread : s.unread = c :: cs) : (s.pass c).Fits := by
  have length := h.atHand
  have text := unread
  rw [unread, lineLength] at length
  unfold Source.unread at text
  cases hand : s.atHand with
  | nil =>
    rw [hand] at length
    split at length
    · cases length
    · cases length
  | cons d rest =>
    rw [hand, List.cons_append] at text
    obtain ⟨rfl, rfl⟩ := List.cons.inj text
    rw [hand, List.length_cons] at length
    refine ⟨h.lines, ?_⟩
    rw [Source.unread, atHand_pass hand, feed_pass]
    split at length
    · exact .inl (List.length_eq_zero_iff.1 (Nat.succ.inj length))
    · exact .inr (Nat.succ.inj length)

/-- Taking characters by a test ends with a look at the one that fails. -/
theorem Fits.takeWhile {s : Source} (h : s.Fits) (p : Char → Bool) :
    (s.takeWhile p).2.Ready := by
  obtain ⟨t, fits, ended⟩ := takeWhile_ends (motive := Fits) p
    (fun s c cs unread fits => fits.fill.pass (s.unread_fill.trans unread)) h
  rw [ended]
  exact fits.fill

/-- The source is there as a whole, or has nothing or the rest of a line at
hand. -/
def Orderly (s : Source) : Prop := s.feed = .whole ∨ s.Fits

/-- The source is there as a whole, or has the rest of the line at hand. -/
def Poised (s : Source) : Prop := s.feed = .whole ∨ s.Ready

theorem Poised.orderly {s : Source} (h : s.Poised) : s.Orderly :=
  h.imp_right Ready.fits

/-- What is given up is the rest of the line, and it is at hand. -/
theorem Poised.discardLine_eq {s : Source} (h : s.Poised) :
    s.discardLine = s.drop (lineLength s.unread) ∧
      lineLength s.unread ≤ s.atHand.length := by
  rcases h with whole | ⟨⟨f, lines⟩, line⟩
  · refine ⟨discardLine_of_whole whole, ?_⟩
    rw [unread_of_whole whole]
    exact lineLength_le _
  · rw [← line]
    exact ⟨discardLine_of_lines lines, Nat.le_refl _⟩

/-- The text behind the line is left, and the cursor stands there. -/
theorem Poised.discardLine_spec {s : Source} (h : s.Poised) :
    s.discardLine.unread = s.unread.drop (lineLength s.unread) ∧
      s.discardLine.location =
        s.location.advanceOver (s.unread.take (lineLength s.unread)) := by
  obtain ⟨given, enough⟩ := h.discardLine_eq
  rw [given]
  exact ⟨unread_drop enough, location_drop enough⟩

/-- A reader that gives up a line has nothing at hand then. -/
theorem Ready.discardLine {s : Source} (h : s.Ready) : s.discardLine.Fits := by
  obtain ⟨f, lines⟩ := h.lines
  rw [discardLine_of_lines lines]
  refine ⟨⟨f, lines⟩, .inl ?_⟩
  rw [atHand_drop, List.drop_length]

/-- A reader that is fed by lines, beside a source that has the same text as a
whole. -/
structure Tracks (r s : Source) : Prop where
  location : r.location = s.location
  unread : r.unread = s.unread
  whole : s.feed = .whole
  fits : r.Fits

variable {r s : Source}

theorem Tracks.sameText (h : Tracks r s) : SameText r s :=
  ⟨h.location, h.unread⟩

/-- The same characters are taken, and the two stay side by side. -/
theorem Tracks.takeWhile (h : Tracks r s) (p : Char → Bool) :
    (r.takeWhile p).1 = (s.takeWhile p).1 ∧
      Tracks (r.takeWhile p).2 (s.takeWhile p).2 := by
  obtain ⟨same, after⟩ := h.sameText.takeWhile p
  exact ⟨same, after.location, after.unread, feed_takeWhile h.whole p,
    (h.fits.takeWhile p).fits⟩

/-- The same token is read, and then the rest of its line is at hand. -/
theorem Tracks.nextToken (h : Tracks r s) :
    r.nextToken.1 = s.nextToken.1 ∧ Tracks r.nextToken.2 s.nextToken.2 ∧
      r.nextToken.2.Ready := by
  obtain ⟨_, atToken⟩ := h.takeWhile isBlank
  obtain ⟨_, behind⟩ := atToken.takeWhile fun c => !isBlank c
  refine ⟨h.sameText.nextToken.1, ?_⟩
  rw [nextToken_eq, nextToken_eq]
  dsimp only
  rw [atToken.unread]
  split
  · exact ⟨atToken, h.fits.takeWhile isBlank⟩
  · exact ⟨behind, atToken.fits.takeWhile _⟩

/-- **Reader and text answer a request alike**, if a line is only given up
when its rest is at hand. -/
theorem Tracks.ask (h : Tracks r s) {request : Request}
    (allowed : request = .discard → r.Ready) :
    (r.ask request).1 = (s.ask request).1 ∧
      Tracks (r.ask request).2 (s.ask request).2 := by
  have still : s.fill = s := fill_of_whole h.whole
  have looked : Tracks r.fill s :=
    ⟨r.location_fill.trans h.location, r.unread_fill.trans h.unread, h.whole,
      h.fits.fill.fits⟩
  cases request with
  | peek =>
    unfold Source.ask
    rw [peek_eq, peek_eq, h.unread, still]
    exact ⟨rfl, looked⟩
  | next =>
    cases unread : s.unread with
    | nil =>
      unfold Source.ask
      rw [next_of_nil (h.unread.trans unread), next_of_nil unread, still]
      exact ⟨rfl, looked⟩
    | cons c cs =>
      have text := h.unread.trans unread
      have behind := unread_pass unread
      unfold Source.ask
      rw [next_of_cons text, next_of_cons unread]
      refine ⟨rfl, ?_, (unread_pass text).trans behind.symm, ?_,
        h.fits.fill.pass (r.unread_fill.trans text)⟩
      · show r.fill.location.advance c = s.fill.location.advance c
        rw [looked.location, still]
      · rw [feed_pass, still, h.whole]
  | token =>
    obtain ⟨same, tracks, _⟩ := h.nextToken
    exact ⟨congrArg Answer.token same, tracks⟩
  | discard =>
    have ready := allowed rfl
    obtain ⟨left, place⟩ := Poised.discardLine_spec (.inr ready)
    obtain ⟨left', place'⟩ := Poised.discardLine_spec (.inl h.whole)
    rw [h.unread] at left place
    rw [h.location] at place
    refine ⟨rfl, place.trans place'.symm, left.trans left'.symm, ?_,
      ready.discardLine⟩
    show s.discardLine.feed = .whole
    rw [discardLine_of_whole h.whole]
    exact h.whole

/-! ## Requests one after the other -/

/-- Whether an answer is a token. -/
def Answer.isToken : Answer → Bool
  | .token (some _) => true
  | _ => false

/-- Whether an answer hands nothing out. -/
def Answer.isNothing : Answer → Bool
  | .char none | .token none | .done => true
  | _ => false

/-- Requests among which a line is given up only directly after a token;
`behindToken` says whether a token was handed out just before. -/
def Polite : Bool → Source → List Request → Prop
  | _, _, [] => True
  | behindToken, s, request :: requests =>
    (request = .discard → behindToken = true) ∧
      Polite (s.ask request).1.isToken (s.ask request).2 requests

instance Polite.decidable : ∀ (behindToken : Bool) (s : Source)
    (requests : List Request), Decidable (Polite behindToken s requests)
  | _, _, [] => inferInstanceAs (Decidable True)
  | behindToken, s, request :: requests =>
    have := decidable (s.ask request).1.isToken (s.ask request).2 requests
    inferInstanceAs (Decidable
      ((request = .discard → behindToken = true) ∧
        Polite (s.ask request).1.isToken (s.ask request).2 requests))

/-- Reader and text answer polite requests alike, and stay side by side. -/
theorem Tracks.transcript {behindToken : Bool} {requests : List Request}
    (h : Tracks r s) (atHand : behindToken = true → r.Ready)
    (polite : Polite behindToken r requests) :
    r.transcript requests = s.transcript requests ∧
      Tracks (r.after requests) (s.after requests) := by
  induction requests generalizing r s behindToken with
  | nil => exact ⟨rfl, h⟩
  | cons request requests ih =>
    obtain ⟨allowed, rest⟩ := polite
    obtain ⟨same, tracks⟩ := h.ask fun discard => atHand (allowed discard)
    have ready : (r.ask request).1.isToken = true →
        (r.ask request).2.Ready := by
      intro token
      cases request with
      | token => exact h.nextToken.2.2
      | peek => cases token
      | next => cases token
      | discard => cases token
    obtain ⟨answers, after⟩ := ih tracks ready rest
    refine ⟨?_, after⟩
    rw [Source.transcript, Source.transcript, same, tracks.location, answers]

/-- At the end of its text a source hands nothing out and stays there. -/
theorem ask_of_ended (ended : s.unread = []) (request : Request) :
    (s.ask request).1.isNothing = true ∧ (s.ask request).2.unread = [] ∧
      (s.ask request).2.location = s.location := by
  cases request with
  | peek =>
    unfold ask
    rw [peek_eq, ended]
    exact ⟨rfl, s.unread_fill.trans ended, s.location_fill⟩
  | next =>
    unfold ask
    rw [next_of_nil ended]
    exact ⟨rfl, s.unread_fill.trans ended, s.location_fill⟩
  | token =>
    unfold ask
    rw [nextToken_of_nil ended]
    exact ⟨rfl, s.unread_fill.trans ended, s.location_fill⟩
  | discard =>
    obtain ⟨none, behind⟩ := List.append_eq_nil_iff.1 ended
    have stays (count : Nat) : (s.drop count).unread = [] ∧
        (s.drop count).location = s.location := by
      refine ⟨?_, ?_⟩
      · rw [unread, atHand_drop, none, List.drop_nil]
        exact behind
      · rw [drop, none, List.take_nil, Location.advanceOver_nil]
    refine ⟨rfl, ?_⟩
    show s.discardLine.unread = [] ∧ s.discardLine.location = s.location
    unfold discardLine
    split
    · exact stays _
    · exact stays _

/-- And so on for any number of requests. -/
theorem transcript_of_ended (ended : s.unread = [])
    (requests : List Request) :
    ∀ entry ∈ s.transcript requests,
      entry.1.isNothing = true ∧ entry.2 = s.location := by
  induction requests generalizing s with
  | nil => exact nofun
  | cons request requests ih =>
    obtain ⟨nothing, ended', stays⟩ := ask_of_ended ended request
    refine List.forall_mem_cons.2 ⟨⟨nothing, stays⟩, fun entry mem => ?_⟩
    have later := ih ended' entry mem
    rwa [stays] at later

/-- **A reader that is fed by lines presents the text of its lines.**  For all
bytes there is exactly one text that is encoded by their lines before the
first that encodes none.  For any requests among which a line is given up only
directly after a token, a reader of the bytes and a source that has the text
give the same answers and report the same places, and once the text is used
up, the reader hands out nothing more, whatever it is asked for. -/
theorem reader_tracks_text (path : String) (bytes : ByteArray)
    (promptText : Option String) :
    (∃! text, Readable bytes.toList text) ∧
    ∀ text, Readable bytes.toList text → ∀ requests,
      Polite false (ofBytes path bytes promptText) requests →
      (ofBytes path bytes promptText).transcript requests =
          (ofText path text).transcript requests ∧
        (((ofText path text).after requests).unread = [] →
          ∀ more, ∀ entry ∈
            ((ofBytes path bytes promptText).after requests).transcript more,
            entry.1.isNothing = true ∧
              entry.2 = ((ofText path text).after requests).location) := by
  have start {text : String} (readable : Readable bytes.toList text) :
      Tracks (ofBytes path bytes promptText) (ofText path text) := by
    refine ⟨rfl, ?_, rfl, ⟨_, rfl⟩, .inl rfl⟩
    rw [unread_ofBytes readable, unread_ofText]
  constructor
  · obtain ⟨text, readable⟩ := exists_readable bytes.toList
    refine ⟨text, readable, fun other readable' => ?_⟩
    have same := (start readable').unread.symm.trans (start readable).unread
    rw [unread_ofText, unread_ofText] at same
    exact String.toList_inj.1 same
  · intro text readable requests polite
    have atHand : false = true → (ofBytes path bytes promptText).Ready :=
      nofun
    obtain ⟨answers, after⟩ := (start readable).transcript atHand polite
    refine ⟨answers, fun ended more => ?_⟩
    rw [← after.location]
    exact transcript_of_ended (after.unread.trans ended) more

/-- Two lines and a byte that is no text. -/
def brokenLines : ByteArray := ⟨#[97, 32, 98, 10, 195, 169, 10, 255]⟩

/-- Tokens, a line given up behind one, and a character at the end. -/
def someRequests : List Request :=
  [.token, .discard, .peek, .token, .next, .peek]

/-- They are answered as from the two lines, and then there is nothing. -/
theorem brokenLines_read :
    Readable brokenLines.toList "a b\né\n" ∧
    Polite false (ofBytes "" brokenLines none) someRequests ∧
    (ofBytes "" brokenLines none).transcript someRequests =
      [(.token (some ⟨⟨"", 1, 1⟩, "a"⟩), ⟨"", 1, 2⟩), (.done, ⟨"", 2, 1⟩),
        (.char (some 'é'), ⟨"", 2, 1⟩),
        (.token (some ⟨⟨"", 2, 1⟩, "é"⟩), ⟨"", 2, 2⟩),
        (.char (some '\n'), ⟨"", 3, 1⟩), (.char none, ⟨"", 3, 1⟩)] ∧
    (ofBytes "" brokenLines none).transcript someRequests =
      (ofText "" "a b\né\n").transcript someRequests ∧
    ∀ more, ∀ entry ∈
      ((ofBytes "" brokenLines none).after someRequests).transcript more,
      entry.1.isNothing = true ∧ entry.2 = ⟨"", 3, 1⟩ := by
  have polite : Polite false (ofBytes "" brokenLines none) someRequests := by
    decide +kernel
  have readable : Readable brokenLines.toList "a b\né\n" := by
    have lines : byteLines brokenLines.toList =
        [[97, 32, 98, 10], [195, 169, 10]] ++ [[255]] := by decide +kernel
    have last : decodeLine [255] = none := by decide +kernel
    refine ⟨_, _, lines ▸ lined_byteLines _, ?_, ?_, by decide +kernel⟩
    · simp only [List.forall_mem_cons, List.not_mem_nil, false_imp_iff,
        implies_true, and_true]
      exact ⟨⟨['a', ' ', 'b', '\n'], by decide +kernel⟩,
        ⟨['é', '\n'], by decide +kernel⟩⟩
    · intro line hline cs same
      cases hline
      rw [decodeLine_eq_some_iff.2 same] at last
      cases last
  obtain ⟨_, tracks⟩ := reader_tracks_text "" brokenLines none
  obtain ⟨answers, nothing⟩ := tracks _ readable _ polite
  have place : ((ofText "" "a b\né\n").after someRequests).location =
      ⟨"", 3, 1⟩ := by decide +kernel
  exact ⟨readable, polite, by decide +kernel, answers,
    place ▸ nothing (by decide +kernel)⟩

end Source

end Forth
