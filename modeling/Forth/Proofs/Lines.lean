import Forth.Proofs.LineReader

/-!
# Giving up the rest of a line

What a source has still to offer are the tokens in its unread text
(`remaining`).  Each token that is read is the first of them, and their lines
go up (`remaining_pairwise`).  How the text arrives plays no part in this: it
shows only where a line is given up, since a reader that is fed by lines gives
up what it has at hand.

An **orderly** source is there as a whole, or a reader with nothing or the
rest of a line at hand; both kinds of source start out so, and reading tokens
leaves them so.  After a token has been asked for the rest of the line is at
hand (`Orderly.nextToken`).

Main statement: `remaining_discardLine`.  Giving up a line whose rest is at
hand takes away the tokens that start on that line, and no others.
-/

namespace Forth

/-- A newline leads to the next line, and nothing else does. -/
theorem Location.line_advanceOver (l : Location) (cs : List Char) :
    (l.advanceOver cs).line = l.line + cs.count '\n' := by
  induction cs generalizing l with
  | nil => rfl
  | cons c cs ih =>
    rw [Location.advanceOver_cons, ih, Location.advance]
    by_cases newline : c = '\n'
    · simp [newline]
      omega
    · simp [newline]

/-- There is no newline in a token. -/
theorem newline_not_mem {run : List Char}
    (filled : ∀ c ∈ run, isBlank c = false) : '\n' ∉ run :=
  fun newline => nomatch filled '\n' newline

/-- The line of a token goes up, or stays. -/
abbrev Token.NotAfter (s t : Token) : Prop :=
  s.location.line ≤ t.location.line

/-- Of tokens in order those behind a line are the last ones. -/
theorem filter_line_suffix {tokens : List Token}
    (ordered : tokens.Pairwise Token.NotAfter) (k : Nat) :
    (tokens.filter fun t => k < t.location.line) <:+ tokens := by
  induction tokens with
  | nil => exact List.suffix_refl _
  | cons t tokens ih =>
    obtain ⟨first, rest⟩ := List.pairwise_cons.mp ordered
    by_cases behind : k < t.location.line
    · have all : (t :: tokens).filter (fun t => k < t.location.line) =
          t :: tokens := by
        refine List.filter_eq_self.mpr fun u mem => ?_
        rcases List.mem_cons.mp mem with rfl | later
        · exact decide_eq_true behind
        · exact decide_eq_true (Nat.lt_of_lt_of_le behind (first u later))
      exact ⟨[], all⟩
    · rw [List.filter_cons_of_neg (by simpa using behind)]
      exact (ih rest).trans (List.suffix_cons t tokens)

/-- Of tokens in order none up to a token is behind the line of that one. -/
theorem filter_line_append {before after : List Token} {t : Token}
    (ordered : (before ++ t :: after).Pairwise Token.NotAfter) :
    (before ++ t :: after).filter (fun u => t.location.line < u.location.line)
      = after.filter fun u => t.location.line < u.location.line := by
  obtain ⟨_, _, across⟩ := List.pairwise_append.mp ordered
  have none : before.filter
      (fun u => t.location.line < u.location.line) = [] := by
    refine List.filter_eq_nil_iff.mpr fun u mem => ?_
    have le := across u mem t List.mem_cons_self
    simpa using le
  rw [List.filter_append, none, List.nil_append,
    List.filter_cons_of_neg (by simp)]

namespace Source

/-! ## The tokens that are left -/

/-- A source whose unread text is split at its first token reads it. -/
theorem nextToken_of_split {s : Source} {blanks run rest : List Char}
    (unread : s.unread = blanks ++ (run ++ rest))
    (empty : ∀ c ∈ blanks, isBlank c = true) (something : run ≠ [])
    (filled : ∀ c ∈ run, isBlank c = false)
    (apart : ∀ c ∈ rest.head?, isBlank c = true) :
    s.nextToken.1 =
        some ⟨s.location.advanceOver blanks, String.ofList run⟩ ∧
      s.nextToken.2.unread = rest ∧
      s.nextToken.2.location = s.location.advanceOver (blanks ++ run) := by
  obtain ⟨c, cs, rfl⟩ := List.exists_cons_of_ne_nil something
  obtain ⟨_, atToken, place⟩ := takeWhile_of_split unread empty (by
    intro d hd
    cases hd
    exact filled c List.mem_cons_self)
  obtain ⟨taken, left, behind⟩ := takeWhile_of_split
    (p := fun c => !isBlank c) atToken
    (fun d hd => by simp [filled d hd]) (fun d hd => by simp [apart d hd])
  rw [nextToken_eq]
  dsimp only
  rw [atToken]
  dsimp only [List.cons_append]
  refine ⟨?_, left, ?_⟩
  · rw [taken, place]
  · rw [behind, place, Location.advanceOver_append]

/-- Of blanks no token is read. -/
theorem nextToken_of_blank {s : Source}
    (empty : ∀ c ∈ s.unread, isBlank c = true) : s.nextToken.1 = none := by
  obtain ⟨_, ended, _⟩ := takeWhile_of_split
    (List.append_nil s.unread).symm empty nofun
  rw [nextToken_eq]
  dsimp only
  rw [ended]

/-- What reading a token comes to. -/
theorem nextToken_cases (s : Source) :
    (∀ c ∈ s.unread, isBlank c = true) ∧ s.nextToken.1 = none ∨
    ∃ blanks run rest, s.unread = blanks ++ (run ++ rest) ∧
      (∀ c ∈ blanks, isBlank c = true) ∧ run ≠ [] ∧
      (∀ c ∈ run, isBlank c = false) ∧
      (∀ c ∈ rest.head?, isBlank c = true) ∧
      s.nextToken.1 =
        some ⟨s.location.advanceOver blanks, String.ofList run⟩ ∧
      s.nextToken.2.unread = rest ∧
      s.nextToken.2.location = s.location.advanceOver (blanks ++ run) := by
  rcases blank_or_token s.unread with
    empty | ⟨blanks, run, rest, unread, empty, something, filled, apart⟩
  · exact .inl ⟨empty, nextToken_of_blank empty⟩
  · exact .inr ⟨blanks, run, rest, unread, empty, something, filled, apart,
      nextToken_of_split unread empty something filled apart⟩

/-- A token takes something of the text. -/
theorem length_nextToken {s rest : Source} {t : Token}
    (read : s.nextToken = (some t, rest)) :
    rest.unread.length < s.unread.length := by
  rcases s.nextToken_cases with
    ⟨_, none⟩ | ⟨blanks, run, _, unread, _, something, _, _, _, left, _⟩
  · rw [read] at none
    cases none
  · rw [read] at left
    have positive := List.length_pos_iff.mpr something
    rw [unread, left, List.length_append, List.length_append]
    omega

/-- Along the tokens of a source. -/
theorem reading {motive : Source → Prop}
    (ended : ∀ s, s.nextToken.1 = none → motive s)
    (token : ∀ s t rest, s.nextToken = (some t, rest) → motive rest →
      motive s) (s : Source) : motive s := by
  induction length : s.unread.length using Nat.strongRecOn generalizing s
  next n ih =>
  rcases read : s.nextToken with ⟨_ | t, rest⟩
  · exact ended s (by rw [read])
  · have shorter := length_nextToken read
    exact token s t rest read (ih _ (length ▸ shorter) rest rfl)

/-- The tokens that a source has still to offer. -/
def remaining (s : Source) : List Token := s.tokens s.unread.length

theorem tokens_of_none {s : Source} (none : s.nextToken.1 = none)
    (limit : Nat) : s.tokens limit = [] := by
  cases limit with
  | zero => rfl
  | succ limit =>
    rcases read : s.nextToken with ⟨_ | t, rest⟩
    · rw [tokens, read]
    · rw [read] at none
      cases none

/-- There are no more tokens than characters. -/
theorem tokens_of_enough {s : Source} {limit : Nat}
    (enough : s.unread.length ≤ limit) : s.tokens limit = s.remaining := by
  unfold remaining
  induction s using reading generalizing limit with
  | ended s none => rw [tokens_of_none none, tokens_of_none none]
  | token s t rest read ih =>
    have shorter := length_nextToken read
    obtain ⟨j, rfl⟩ : ∃ j, limit = j + 1 := ⟨limit - 1, by omega⟩
    obtain ⟨k, length⟩ : ∃ k, s.unread.length = k + 1 :=
      ⟨s.unread.length - 1, by omega⟩
    rw [length, tokens, tokens, read]
    dsimp only
    rw [ih (by omega), ih (show rest.unread.length ≤ k by omega)]

theorem remaining_of_none {s : Source} (none : s.nextToken.1 = none) :
    s.remaining = [] :=
  tokens_of_none none _

/-- The token that is read is the first that was left. -/
theorem remaining_of_some {s rest : Source} {t : Token}
    (read : s.nextToken = (some t, rest)) :
    s.remaining = t :: rest.remaining := by
  have shorter := length_nextToken read
  rw [← tokens_of_enough (Nat.le_succ s.unread.length), tokens, read]
  dsimp only
  rw [tokens_of_enough (Nat.le_of_lt shorter)]

theorem head?_remaining (s : Source) :
    s.remaining.head? = s.nextToken.1 := by
  rcases read : s.nextToken with ⟨_ | t, rest⟩
  · rw [remaining_of_none (by rw [read])]
    rfl
  · rw [remaining_of_some read]
    rfl

/-- They depend on the text and the place in it alone. -/
theorem SameText.remaining {r s : Source} (h : SameText r s) :
    r.remaining = s.remaining := by
  induction s using reading generalizing r with
  | ended s none =>
    rw [remaining_of_none none, remaining_of_none (h.nextToken.1.trans none)]
  | token s t rest read ih =>
    obtain ⟨same, after⟩ := h.nextToken
    rw [read] at same after
    have read' : r.nextToken = (some t, r.nextToken.2) := Prod.ext same rfl
    rw [remaining_of_some read, remaining_of_some read', ih after]

/-- No token that is left starts before the cursor. -/
theorem line_le_of_mem_remaining {s : Source} {t : Token}
    (mem : t ∈ s.remaining) : s.location.line ≤ t.location.line := by
  induction s using reading with
  | ended s none =>
    rw [remaining_of_none none] at mem
    cases mem
  | token s u rest read ih =>
    rw [remaining_of_some read] at mem
    rcases s.nextToken_cases with
      ⟨_, none⟩ | ⟨blanks, run, _, _, _, _, _, _, first, _, place⟩
    · rw [read] at none
      cases none
    · rw [read] at first place
      rcases List.mem_cons.mp mem with rfl | later
      · cases first
        rw [Location.line_advanceOver]
        exact Nat.le_add_right _ _
      · have le := ih later
        rw [place, Location.line_advanceOver] at le
        omega

/-- Their lines go up. -/
theorem remaining_pairwise (s : Source) :
    s.remaining.Pairwise Token.NotAfter := by
  induction s using reading with
  | ended s none =>
    rw [remaining_of_none none]
    exact .nil
  | token s t rest read ih =>
    rw [remaining_of_some read]
    refine .cons (fun u mem => ?_) ih
    have le := line_le_of_mem_remaining mem
    rcases s.nextToken_cases with
      ⟨_, none⟩ | ⟨blanks, run, _, _, _, _, _, _, first, _, place⟩
    · rw [read] at none
      cases none
    · rw [read] at first place
      cases first
      rw [place, Location.advanceOver_append, Location.line_advanceOver] at le
      exact Nat.le_trans (Nat.le_add_right _ _) le

/-! ## The rest of the line -/

/-- The source stands behind the line of the other one. -/
structure BehindLine (s t : Source) : Prop where
  unread : t.unread = s.unread.drop (lineLength s.unread)
  location : t.location =
    s.location.advanceOver (s.unread.take (lineLength s.unread))

/-- If the line goes on behind some of the text, the source stands behind the
line there. -/
theorem BehindLine.of_append {r s t : Source} {before : List Char}
    (h : BehindLine s t) (within : '\n' ∉ before)
    (unread : s.unread = before ++ r.unread)
    (location : r.location = s.location.advanceOver before) :
    BehindLine r t := by
  obtain ⟨left, here⟩ := h
  rw [unread, lineLength_append within] at left here
  rw [List.drop_length_add_append] at left
  rw [List.take_length_add_append, Location.advanceOver_append,
    ← location] at here
  exact ⟨left, here⟩

/-- Passing over the rest of the line takes away the tokens that start on the
line of the cursor. -/
theorem BehindLine.remaining {s t : Source} (h : BehindLine s t) :
    t.remaining =
      s.remaining.filter fun u => s.location.line < u.location.line := by
  induction s using reading with
  | ended s none =>
    rcases s.nextToken_cases with ⟨empty, _⟩ | ⟨_, _, _, _, _, _, _, _, some, _⟩
    · have still : t.nextToken.1 = .none := by
        refine nextToken_of_blank fun c mem => empty c ?_
        rw [h.unread] at mem
        exact List.mem_of_mem_drop mem
      rw [remaining_of_none none, remaining_of_none still]
      rfl
    · rw [none] at some
      cases some
  | token s u rest read ih =>
    rcases s.nextToken_cases with ⟨_, none⟩ |
      ⟨blanks, run, _, unread, empty, something, filled, apart, first, rfl,
        place⟩
    · rw [read] at none
      cases none
    rw [read] at first unread place apart
    dsimp only at first unread place apart
    replace first : u = ⟨s.location.advanceOver blanks, String.ofList run⟩ :=
      Option.some.inj first
    rw [remaining_of_some read]
    by_cases newline : '\n' ∈ blanks
    · -- The line ends before the token, which is still the next one then.
      obtain ⟨line, blanks', rfl, within⟩ :=
        List.eq_append_cons_of_mem newline
      have split : s.unread = (line ++ ['\n']) ++
          (blanks' ++ (run ++ rest.unread)) := by
        simpa using unread
      have length : lineLength s.unread = (line ++ ['\n']).length := by
        rw [split, List.append_assoc, lineLength_append within]
        simp [lineLength]
      obtain ⟨left, here⟩ := h
      rw [length, split, List.drop_left] at left
      rw [length, split, List.take_left] at here
      obtain ⟨token, behind, stands⟩ := nextToken_of_split left
        (fun c mem => empty c (by simp [mem])) something filled apart
      have same : t.remaining = u :: rest.remaining := by
        have after : SameText t.nextToken.2 rest := by
          refine ⟨?_, behind⟩
          rw [stands, place, here, ← Location.advanceOver_append]
          simp
        have given : t.nextToken = (some u, t.nextToken.2) := by
          refine Prod.ext (token.trans ?_) rfl
          rw [first, here, ← Location.advanceOver_append]
          simp
        rw [remaining_of_some given, after.remaining]
      rw [← same]
      refine (List.filter_eq_self.mpr fun v mem => ?_).symm
      have le := line_le_of_mem_remaining mem
      rw [here, Location.line_advanceOver, List.count_append] at le
      simp only [List.count_singleton_self] at le
      exact decide_eq_true (by omega)
    · -- The token is on the line of the cursor, and is given up with it.
      have within : '\n' ∉ blanks ++ run := by
        simp [newline, newline_not_mem filled]
      have still : (s.location.advanceOver (blanks ++ run)).line =
          s.location.line := by
        rw [Location.line_advanceOver, List.count_eq_zero.mpr within]
        rfl
      have on : (s.location.advanceOver blanks).line = s.location.line := by
        rw [Location.line_advanceOver, List.count_eq_zero.mpr newline]
        rfl
      have behind : BehindLine rest t := h.of_append within
        (unread.trans (List.append_assoc _ _ _).symm) place
      rw [ih behind, place, still, List.filter_cons_of_neg]
      rw [first, on]
      simp

/-! ## Orderly sources -/

variable {s : Source}

/-- **Giving up the rest of a line** takes away the tokens that start on that
line, and no others. -/
theorem remaining_discardLine (h : s.Poised) :
    s.discardLine.remaining =
      s.remaining.filter fun t => s.location.line < t.location.line :=
  BehindLine.remaining ⟨h.discardLine_spec.1, h.discardLine_spec.2⟩

/-- Asking for a token ends with a look at the character behind it. -/
theorem Orderly.nextToken (h : s.Orderly) : s.nextToken.2.Poised := by
  have takes {s : Source} (h : s.Orderly) (p : Char → Bool) :
      (s.takeWhile p).2.Poised :=
    h.imp (fun whole => feed_takeWhile whole p) fun fits => fits.takeWhile p
  rw [nextToken_eq]
  dsimp only
  split
  · exact takes h isBlank
  · exact takes (takes h isBlank).orderly _

theorem Poised.discardLine (h : s.Poised) : s.discardLine.Orderly := by
  rcases h with whole | ready
  · rw [discardLine_of_whole whole]
    exact .inl whole
  · exact .inr ready.discardLine

/-- Collecting notices leaves the text alone. -/
theorem takeNotices_sameText (s : Source) :
    SameText s.takeNotices.2 s := by
  unfold takeNotices
  split
  · exact ⟨rfl, rfl⟩
  · next f lines =>
    refine ⟨rfl, ?_⟩
    rw [unread, unread, lines]
    rfl

theorem Poised.takeNotices (h : s.Poised) : s.takeNotices.2.Poised := by
  have same := (takeNotices_sameText s).unread
  unfold Source.takeNotices at same ⊢
  rcases h with whole | ⟨⟨f, lines⟩, line⟩
  · rw [whole]
    exact .inl whole
  · rw [lines] at same ⊢
    exact .inr ⟨⟨_, rfl⟩, line.trans (congrArg lineLength same.symm)⟩

/-! ## Sources at their start -/

theorem orderly_ofBytes (path : String) (bytes : ByteArray)
    (promptText : Option String) :
    (ofBytes path bytes promptText).Orderly :=
  .inr ⟨⟨_, rfl⟩, .inl rfl⟩

/-- Of a text all tokens are left. -/
theorem remaining_ofText (path text : String) :
    (ofText path text).remaining = tokenize path text := by
  unfold remaining tokenize
  rw [unread_ofText, String.length_toList]

/-- So they are of bytes from which the text can be read. -/
theorem remaining_ofBytes {bytes : ByteArray} {text : String}
    (readable : Readable bytes.toList text) (path : String)
    (promptText : Option String) :
    (ofBytes path bytes promptText).remaining = tokenize path text := by
  have same : SameText (ofBytes path bytes promptText) (ofText path text) :=
    ⟨rfl, (unread_ofBytes readable path promptText).trans
      (unread_ofText path text).symm⟩
  rw [same.remaining, remaining_ofText]

end Source

end Forth
