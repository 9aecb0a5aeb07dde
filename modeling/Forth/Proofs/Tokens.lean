import Forth.Token

/-!
# Tokens and the text around them

Taking characters that pass a test splits what is unread at the first that
does not (`unread_takeWhile`).  So a token is never empty
(`text_ne_of_nextToken`).

`Spells` says which tokens a text is made of, without reading it: pieces
without blanks, with blanks around them.  Reading a text that is there as a
whole gives these tokens one by one (`nextToken_of_spells`,
`nextToken_of_spells_nil`), and the text that is written with a space before
each token is made of them (`spells_spaced`).  Every text is made of tokens,
and those are the ones that it is cut into (`spells_tokenize`).
-/

namespace Forth

/-- A text that can stand as a token: there is something of it, and no blank
in it. -/
def IsToken (text : String) : Prop :=
  text ≠ "" ∧ ∀ c ∈ text.toList, isBlank c = false

instance (text : String) : Decidable (IsToken text) :=
  decidable_of_iff
    (text ≠ "" ∧ (text.toList.all fun c => !isBlank c) = true)
    (by simp [IsToken])

/-- The tokens that a text is made of. -/
inductive Spells : List Char → List String → Prop
  /-- Blanks only. -/
  | nil {blanks : List Char} (empty : ∀ c ∈ blanks, isBlank c = true) :
      Spells blanks []
  /-- A token between blanks, and what follows it. -/
  | cons {blanks rest : List Char} {text : String} {texts : List String}
      (empty : ∀ c ∈ blanks, isBlank c = true) (token : IsToken text)
      (apart : ∀ c ∈ rest.head?, isBlank c = true)
      (more : Spells rest texts) :
      Spells (blanks ++ (text.toList ++ rest)) (text :: texts)

/-- Tokens with a space before each. -/
def spaced (texts : List String) : List Char :=
  texts.flatMap fun text => ' ' :: text.toList

/-- A space is left between a text and spaced tokens behind it. -/
theorem isBlank_head_spaced (texts : List String) :
    ∀ c ∈ (spaced texts).head?, isBlank c = true := by
  cases texts with
  | nil => exact nofun
  | cons text texts =>
    intro c hc
    cases hc
    rfl

/-- Spaced tokens are made of those tokens. -/
theorem spells_spaced {texts : List String}
    (tokens : ∀ text ∈ texts, IsToken text) : Spells (spaced texts) texts := by
  induction texts with
  | nil => exact .nil nofun
  | cons text texts ih =>
    have rest := ih fun t ht => tokens t (List.mem_cons_of_mem _ ht)
    have empty : ∀ c ∈ [' '], isBlank c = true := by simp [isBlank]
    exact .cons empty (tokens text List.mem_cons_self)
      (isBlank_head_spaced texts) rest

/-- A text that reads so is made of them. -/
theorem spells_of_toList {text : String} {texts : List String}
    (same : text.toList = spaced texts)
    (tokens : ∀ token ∈ texts, IsToken token) : Spells text.toList texts := by
  rw [same]
  exact spells_spaced tokens

namespace Source

/-- A source that has such a text has all of it to offer. -/
theorem spells_ofText {text : String} {texts : List String}
    (spells : Spells text.toList texts) (path : String) :
    Spells (ofText path text).unread texts := by
  rwa [unread_ofText]

/-- What stays unread begins with the first character that fails the
test. -/
theorem unread_takeWhile (s : Source) (p : Char → Bool) :
    (s.takeWhile p).2.unread = s.unread.dropWhile p :=
  (s.takeWhile_spec p).2.1

/-- The text of a token is not empty. -/
theorem text_ne_of_nextToken {s rest : Source} {t : Token}
    (h : s.nextToken = (some t, rest)) : t.text ≠ "" := by
  rw [nextToken_eq] at h
  dsimp only at h
  split at h
  · cases h
  · next c cs unread =>
    cases h
    intro empty
    have taken : ((s.takeWhile isBlank).2.takeWhile fun c => !isBlank c).1 =
        [] := by simpa using empty
    rw [(takeWhile_spec _ _).1, unread] at taken
    have first := List.head?_dropWhile_not isBlank s.unread
    rw [← unread_takeWhile, unread] at first
    have filled : isBlank c = false := by simpa using first
    simp [filled] at taken

/-- When no token is left, nothing is. -/
theorem unread_of_nextToken {s rest : Source}
    (read : s.nextToken = (none, rest)) : rest.unread = [] := by
  rw [nextToken_eq] at read
  dsimp only at read
  split at read
  · next ended =>
    cases read
    exact ended
  · cases read

/-- A text that is there as a whole stays so. -/
theorem feed_takeWhile {s : Source} (whole : s.feed = .whole)
    (p : Char → Bool) : (s.takeWhile p).2.feed = .whole := by
  obtain ⟨t, whole', ended⟩ := takeWhile_ends
    (motive := fun s => s.feed = .whole) p
    (fun s c _ _ whole => by rw [feed_pass, fill_of_whole whole, whole]) whole
  rw [ended, fill_of_whole whole', whole']

/-- What is taken, what stays unread and where the cursor then stands, at the
first character that fails the test. -/
theorem takeWhile_of_split {s : Source} {p : Char → Bool}
    {taken rest : List Char} (unread : s.unread = taken ++ rest)
    (pass : ∀ c ∈ taken, p c = true) (stop : ∀ c ∈ rest.head?, p c = false) :
    (s.takeWhile p).1 = taken ∧ (s.takeWhile p).2.unread = rest ∧
      (s.takeWhile p).2.location = s.location.advanceOver taken := by
  have split : s.unread.takeWhile p = taken ∧ s.unread.dropWhile p = rest := by
    rw [unread, List.takeWhile_append_of_pos pass,
      List.dropWhile_append_of_pos pass]
    cases rest with
    | nil => simp
    | cons c rest => simp [stop c rfl]
  obtain ⟨first, left, place⟩ := s.takeWhile_spec p
  rw [split.1] at first place
  rw [split.2] at left
  exact ⟨first, left, place⟩

/-- Of a text that is there as a whole such a stretch is taken, and the text
is still there as a whole. -/
theorem takeWhile_of_append {s : Source} {p : Char → Bool}
    {taken rest : List Char} (whole : s.feed = .whole)
    (unread : s.unread = taken ++ rest) (pass : ∀ c ∈ taken, p c = true)
    (stop : ∀ c ∈ rest.head?, p c = false) :
    (s.takeWhile p).1 = taken ∧ (s.takeWhile p).2.unread = rest ∧
      (s.takeWhile p).2.feed = .whole := by
  obtain ⟨first, left, _⟩ := takeWhile_of_split unread pass stop
  exact ⟨first, left, feed_takeWhile whole p⟩

/-- Two cursors at the same place of the same text, however it arrives. -/
structure SameText (r s : Source) : Prop where
  location : r.location = s.location
  unread : r.unread = s.unread

/-- The same characters are taken. -/
theorem SameText.takeWhile {r s : Source} (h : SameText r s)
    (p : Char → Bool) : (r.takeWhile p).1 = (s.takeWhile p).1 ∧
      SameText (r.takeWhile p).2 (s.takeWhile p).2 := by
  obtain ⟨taken, left, place⟩ := r.takeWhile_spec p
  obtain ⟨taken', left', place'⟩ := s.takeWhile_spec p
  rw [h.unread] at taken left place
  rw [h.location] at place
  exact ⟨taken.trans taken'.symm, place.trans place'.symm,
    left.trans left'.symm⟩

/-- The same token is read. -/
theorem SameText.nextToken {r s : Source} (h : SameText r s) :
    r.nextToken.1 = s.nextToken.1 ∧
      SameText r.nextToken.2 s.nextToken.2 := by
  obtain ⟨_, atToken⟩ := h.takeWhile isBlank
  obtain ⟨run, behind⟩ := atToken.takeWhile fun c => !isBlank c
  rw [nextToken_eq, nextToken_eq]
  dsimp only
  rw [atToken.unread]
  split
  · exact ⟨rfl, atToken⟩
  · refine ⟨?_, behind⟩
    rw [atToken.location, run]

/-- At the end of the tokens nothing is read. -/
theorem nextToken_of_spells_nil {s : Source} (whole : s.feed = .whole)
    (spells : Spells s.unread []) :
    ∃ rest, s.nextToken = (none, rest) ∧ rest.feed = .whole := by
  generalize hunread : s.unread = unread at spells
  cases spells with
  | nil empty =>
    obtain ⟨_, ended, whole₁⟩ := takeWhile_of_append whole
      (hunread.trans (List.append_nil _).symm) empty nofun
    rw [nextToken_eq]
    dsimp only
    rw [ended]
    exact ⟨_, rfl, whole₁⟩

/-- Of a text that is there as a whole the next token is read, and then the
others are left. -/
theorem nextToken_of_spells {s : Source} {text : String}
    {texts : List String} (whole : s.feed = .whole)
    (spells : Spells s.unread (text :: texts)) :
    ∃ t rest, s.nextToken = (some t, rest) ∧ t.text = text ∧
      rest.feed = .whole ∧ Spells rest.unread texts := by
  generalize hunread : s.unread = unread at spells
  cases spells with
  | @cons blanks rest _ _ empty token apart more =>
    obtain ⟨something, filled⟩ := token
    obtain ⟨c, cs, hcs⟩ : ∃ c cs, text.toList = c :: cs := by
      cases h : text.toList with
      | nil => exact absurd (String.toList_eq_nil_iff.1 h) something
      | cons c cs => exact ⟨c, cs, rfl⟩
    -- First the blanks are passed over, up to the token.
    obtain ⟨_, atToken, whole₁⟩ := takeWhile_of_append whole hunread empty
      (by
        intro d hd
        rw [hcs] at hd
        cases hd
        exact filled c (by rw [hcs]; exact List.mem_cons_self))
    -- Then the token is taken, up to the next blank.
    obtain ⟨taken, left, whole₂⟩ := takeWhile_of_append
      (p := fun c => !isBlank c) whole₁ atToken
      (fun d hd => by simp [filled d hd]) (fun d hd => by simp [apart d hd])
    rw [nextToken_eq]
    dsimp only
    rw [atToken, hcs]
    dsimp only [List.cons_append]
    refine ⟨_, _, rfl, ?_, whole₂, ?_⟩
    · rw [taken]
      exact String.ofList_toList
    · rw [left]
      exact more

/-- A text is cut into the tokens that it is made of. -/
theorem tokens_of_spells {s : Source} {texts : List String}
    (whole : s.feed = .whole) (spells : Spells s.unread texts) {limit : Nat}
    (enough : texts.length ≤ limit) :
    (s.tokens limit).map Token.text = texts := by
  induction texts generalizing s limit with
  | nil =>
    cases limit with
    | zero => rfl
    | succ limit =>
      obtain ⟨rest, read, _⟩ := nextToken_of_spells_nil whole spells
      unfold tokens
      rw [read]
      rfl
  | cons text texts ih =>
    cases limit with
    | zero => cases enough
    | succ limit =>
      obtain ⟨token, rest, read, rfl, whole', spells'⟩ :=
        nextToken_of_spells whole spells
      unfold tokens
      rw [read]
      exact congrArg (List.cons _)
        (ih whole' spells' (Nat.le_of_succ_le_succ enough))

end Source

/-! ## The tokens of a text -/

/-- A text is blank, or there is a first token in it. -/
theorem blank_or_token (cs : List Char) :
    (∀ c ∈ cs, isBlank c = true) ∨ ∃ blanks run rest,
      cs = blanks ++ (run ++ rest) ∧ (∀ c ∈ blanks, isBlank c = true) ∧
      run ≠ [] ∧ (∀ c ∈ run, isBlank c = false) ∧
      ∀ c ∈ rest.head?, isBlank c = true := by
  induction cs with
  | nil => exact .inl nofun
  | cons c cs ih =>
    cases blank : isBlank c with
    | true =>
      rcases ih with empty | ⟨blanks, run, rest, split, empty, token⟩
      · exact .inl (List.forall_mem_cons.2 ⟨blank, empty⟩)
      · exact .inr ⟨c :: blanks, run, rest, by rw [split]; rfl,
          List.forall_mem_cons.2 ⟨blank, empty⟩, token⟩
    | false =>
      have split := List.takeWhile_append_dropWhile
        (p := fun c => !isBlank c) (l := cs)
      have stop := List.head?_dropWhile_not (fun c => !isBlank c) cs
      refine .inr ⟨[], c :: cs.takeWhile fun c => !isBlank c,
        cs.dropWhile fun c => !isBlank c, ?_, nofun, by simp, ?_, ?_⟩
      · simp [split]
      · refine List.forall_mem_cons.2 ⟨blank, fun d hd => ?_⟩
        have passes := List.all_eq_true.1 List.all_takeWhile d hd
        simpa using passes
      · intro d hd
        rw [hd] at stop
        simpa using stop

/-- Every text is made of tokens. -/
theorem exists_spells (cs : List Char) : ∃ texts, Spells cs texts := by
  -- By length, since what follows the first token is shorter.
  induction length : cs.length using Nat.strongRecOn generalizing cs
  next n ih =>
  rcases blank_or_token cs with
    empty | ⟨blanks, run, rest, rfl, empty, something, filled, apart⟩
  · exact ⟨[], .nil empty⟩
  · have shorter : rest.length < n := by
      have positive : 0 < run.length := List.length_pos_iff.2 something
      simp only [List.length_append] at length
      omega
    obtain ⟨texts, more⟩ := ih _ shorter rest rfl
    have token : IsToken (String.ofList run) := by
      refine ⟨fun h => something ?_, ?_⟩
      · simpa using congrArg String.toList h
      · simpa using filled
    have spells := Spells.cons empty token apart more
    rw [String.toList_ofList] at spells
    exact ⟨_, spells⟩

/-- There are no more tokens than characters. -/
theorem Spells.length_le {cs : List Char} {texts : List String}
    (h : Spells cs texts) : texts.length ≤ cs.length := by
  induction h with
  | nil => exact Nat.zero_le _
  | @cons blanks rest text texts _ token _ _ ih =>
    have something : text.toList ≠ [] := fun h =>
      token.1 (String.toList_eq_nil_iff.1 h)
    have positive : 0 < text.toList.length := List.length_pos_iff.2 something
    simp only [List.length_append, List.length_cons]
    omega

/-- A text is made of the tokens that it is cut into. -/
theorem spells_tokenize (path text : String) :
    Spells text.toList ((tokenize path text).map Token.text) := by
  obtain ⟨texts, spells⟩ := exists_spells text.toList
  have enough : texts.length ≤ text.length := by
    rw [← String.length_toList]
    exact spells.length_le
  have tokens := Source.tokens_of_spells (s := .ofText path text) rfl
    (Source.spells_ofText spells path) enough
  unfold tokenize
  rw [tokens]
  exact spells

end Forth
