import Forth.Proofs.Lockstep
import Forth.Proofs.Recovery
import Forth.Proofs.Settings

/-!
# Layout does not matter

Two texts with the same tokens, however these are set apart and whatever path
the texts are read under, make a machine do the same.  What differs is places:
where a definition is said to stand, and where a failure is.  No word looks at
a place, and of the input the words see tokens only, with the exception of
`key`, which reads a single character.

The two machines run in lockstep.  The relation between them is `Relaid`: they
are in step, have the same data stack, the same dictionaries once all places
are erased, and what either has left to read is made of the same tokens.

Erasing places commutes with everything that is done to a dictionary
(`define_erasePlaces`, `append_erasePlaces`, `markImmediate_erasePlaces`), so
dictionaries that differ in places only stay such.

Main statement: `processSource_relaid`.
-/

namespace Forth

variable {E : Embedding}

/-! ## Words without places -/

/-- A definition without its place. -/
def Word.erasePlace (w : Word E) : Word E :=
  { w with location := .unspecified }

/-- A running word without the place of its definition. -/
def CallSite.erasePlace (s : CallSite) : CallSite :=
  { s with location := .unspecified }

/-- A report without places: the fault, and the names and indices of the words
that were running. -/
def Report.erasePlaces (r : Report) : Report :=
  ⟨none, r.fault, r.calls.map (List.map CallSite.erasePlace)⟩

namespace Dictionary

/-- A dictionary without the places of its definitions. -/
def erasePlaces (d : Dictionary E) : Dictionary E :=
  { d with words := d.words.map Word.erasePlace }

theorem word?_erasePlaces (d : Dictionary E) (h : Handle) :
    d.erasePlaces.word? h = (d.word? h).map Word.erasePlace := by
  simp [word?, erasePlaces]

theorem body_erasePlaces (d : Dictionary E) : d.erasePlaces.body = d.body := by
  funext h
  unfold body
  rw [word?_erasePlaces]
  cases d.word? h <;> rfl

theorem isImmediate_erasePlaces (d : Dictionary E) :
    d.erasePlaces.isImmediate = d.isImmediate := by
  funext h
  unfold isImmediate
  rw [word?_erasePlaces]
  cases d.word? h <;> rfl

theorem listing_erasePlaces (d : Dictionary E) :
    d.erasePlaces.listing = d.listing := by
  have line : d.erasePlaces.listingLine = d.listingLine := by
    funext width h
    unfold listingLine
    rw [isImmediate_erasePlaces, word?_erasePlaces]
    cases d.word? h <;> rfl
  unfold listing
  rw [line]
  rfl

theorem define_erasePlaces (d : Dictionary E) (w : Word E) :
    d.erasePlaces.define w.erasePlace =
      ((d.define w).1, (d.define w).2.erasePlaces) := by
  simp [define, erasePlaces, Word.erasePlace]

/-- A definition may be changed before or after its place is erased. -/
theorem change_erasePlaces (d : Dictionary E) (h : Handle)
    {f : Word E → Word E} (blind : ∀ w, f w.erasePlace = (f w).erasePlace) :
    d.erasePlaces.change h f = (d.change h f).erasePlaces := by
  have words : (d.words.map Word.erasePlace).modify h.serial f =
      (d.words.modify h.serial f).map Word.erasePlace := by
    apply Array.ext_getElem?
    intro i
    simp only [Array.getElem?_map, Array.getElem?_modify]
    split
    · cases d.words[i]? with
      | none => rfl
      | some w => exact congrArg some (blind w)
    · rfl
  unfold change erasePlaces
  dsimp only
  rw [words]

theorem markImmediate_erasePlaces (d : Dictionary E) (h : Handle) :
    d.erasePlaces.markImmediate h = (d.markImmediate h).erasePlaces :=
  d.change_erasePlaces h (f := Word.mark) fun _ => rfl

theorem append_erasePlaces (d : Dictionary E) (h : Handle) (c : Cell) :
    d.erasePlaces.append h c = (d.append h c).map erasePlaces := by
  have blind (w : Word E) :
      w.erasePlace.grow c = (w.grow c).erasePlace := by
    obtain ⟨_, _, body, _, _, _⟩ := w
    cases body <;> rfl
  cases body : d.body h with
  | thread cells =>
    rw [append_of_thread body,
      append_of_thread (d.body_erasePlaces ▸ body), change_erasePlaces d h blind]
    rfl
  | builtin b =>
    unfold append
    rw [body_erasePlaces, body]
    rfl
  | host code =>
    unfold append
    rw [body_erasePlaces, body]
    rfl

end Dictionary

namespace Machine

/-! ## Two machines in lockstep -/

/-- Machines that agree on everything but places, input and events. -/
structure Corresponds (m t : Machine E) : Prop extends InStep m t where
  dictionary : t.dictionary.erasePlaces = m.dictionary.erasePlaces
  data : t.data = m.data
  blame : t.blame.map (List.map CallSite.erasePlace) =
    m.blame.map (List.map CallSite.erasePlace)

/-- Machines that correspond and have the same tokens to read. -/
structure Relaid (m t : Machine E) : Prop extends Corresponds m t where
  whole : m.input.feed = .whole
  whole' : t.input.feed = .whole
  spelled : ∃ texts, Spells m.input.unread texts ∧
    Spells t.input.unread texts

/-- Who is running, places apart, does not depend on the dictionary. -/
theorem map_erasePlace_callTrace (m : Machine E) :
    m.callTrace.map CallSite.erasePlace =
      (m.returns.toList.filterMap fun
        | .call c => some ⟨c.word.name, .unspecified, some (c.index - 1)⟩
        | .value _ => none) ++
      (m.cursor.toList.map fun c =>
        ⟨c.word.name, .unspecified, some (c.index - 1)⟩) ++
      m.executing.toList.map fun w => ⟨w.name, .unspecified, none⟩ := by
  unfold callTrace
  rw [List.map_append, List.map_append, List.map_filterMap, List.map_map,
    List.map_map]
  congr
  funext f
  cases f <;> rfl

namespace Relaid

variable {m t : Machine E} {excused : Fault → Prop}

theorem outward : OutwardRelation (E := E) Relaid where
  interpreting := fun h => h.interpreting
  underConstruction := fun h => h.underConstruction
  memory := fun h => h.memory
  output := fun h => h.output
  watcher := fun h => h.watcher
  outward := fun h _ _ _ _ _ _ _ _ interpreting memory output =>
    { h with interpreting := interpreting, memory := memory, output := output }

theorem body (h : Relaid m t) : t.dictionary.body = m.dictionary.body := by
  rw [← t.dictionary.body_erasePlaces, h.dictionary,
    Dictionary.body_erasePlaces]

theorem isImmediate (h : Relaid m t) :
    t.dictionary.isImmediate = m.dictionary.isImmediate := by
  rw [← t.dictionary.isImmediate_erasePlaces, h.dictionary,
    Dictionary.isImmediate_erasePlaces]

theorem listing (h : Relaid m t) :
    t.dictionary.listing = m.dictionary.listing := by
  rw [← t.dictionary.listing_erasePlaces, h.dictionary,
    Dictionary.listing_erasePlaces]

/-- Definitions are written the same. -/
theorem definitionText (h : Relaid m t) :
    t.definitionText = m.definitionText := by
  funext w
  have words : (t.dictionary.word? w).map Word.erasePlace =
      (m.dictionary.word? w).map Word.erasePlace := by
    rw [← Dictionary.word?_erasePlaces, h.dictionary,
      Dictionary.word?_erasePlaces]
  have tokens : t.decompile w = m.decompile w := by
    unfold decompile decompileContext
    rw [Dictionary.cells_eq, Dictionary.cells_eq, h.body, h.isImmediate,
      h.builtins]
  unfold Machine.definitionText
  rw [tokens]
  generalize t.dictionary.word? w = found' at words
  generalize m.dictionary.word? w = found at words
  cases found with
  | none =>
    cases found' with
    | none => rfl
    | some v' => cases words
  | some v =>
    cases found' with
    | none => cases words
    | some v' =>
      obtain ⟨_, _, _, _, _, _⟩ := v
      obtain ⟨_, _, _, _, _, _⟩ := v'
      cases words
      rfl

/-- The next token is the same, and so are those after it. -/
theorem nextToken (h : Relaid m t) :
    t.nextToken.1.map Token.text = m.nextToken.1.map Token.text ∧
      Relaid m.nextToken.2 t.nextToken.2 := by
  obtain ⟨texts, spells, spells'⟩ := h.spelled
  cases texts with
  | nil =>
    obtain ⟨rest, read, whole, ended⟩ := nextToken_of_spells_nil h.whole spells
    obtain ⟨rest', read', whole', ended'⟩ :=
      nextToken_of_spells_nil h.whole' spells'
    rw [read, read']
    exact ⟨rfl, { h with
      whole := whole
      whole' := whole'
      spelled := ⟨[], ended ▸ .nil nofun, ended' ▸ .nil nofun⟩ }⟩
  | cons text texts =>
    obtain ⟨token, rest, read, htext, whole, more⟩ :=
      nextToken_of_spells h.whole spells
    obtain ⟨token', rest', read', htext', whole', more'⟩ :=
      nextToken_of_spells h.whole' spells'
    rw [read, read']
    exact ⟨congrArg some (htext'.trans htext.symm), { h with
      whole := whole
      whole' := whole'
      spelled := ⟨texts, more, more'⟩ }⟩

/-- The same tokens are skipped, if the limits leave all of them within
reach. -/
theorem skipComment (h : Relaid m t) {texts : List String}
    (spells : Spells m.input.unread texts)
    (spells' : Spells t.input.unread texts) {limit limit' : Nat}
    (enough : texts.length ≤ limit) (enough' : texts.length ≤ limit') :
    Relaid (CompileWord.skipComment (limit + 1) m)
      (CompileWord.skipComment (limit' + 1) t) := by
  -- The limits are counted in characters and need not be the same, so this
  -- goes by the tokens that are left.
  induction texts generalizing m t limit limit' with
  | nil =>
    have after := h.nextToken.2
    obtain ⟨rest, read, _⟩ := nextToken_of_spells_nil h.whole spells
    obtain ⟨rest', read', _⟩ := nextToken_of_spells_nil h.whole' spells'
    unfold CompileWord.skipComment
    rw [read, read'] at after ⊢
    exact after
  | cons text texts ih =>
    have after := h.nextToken.2
    obtain ⟨token, rest, read, htext, _, more⟩ :=
      nextToken_of_spells h.whole spells
    obtain ⟨token', rest', read', htext', _, more'⟩ :=
      nextToken_of_spells h.whole' spells'
    rw [List.length_cons] at enough enough'
    obtain ⟨limit, rfl⟩ : ∃ k, limit = k + 1 := ⟨limit - 1, by omega⟩
    obtain ⟨limit', rfl⟩ : ∃ k, limit' = k + 1 := ⟨limit' - 1, by omega⟩
    rw [CompileWord.skipComment, CompileWord.skipComment]
    rw [read, read'] at after ⊢
    dsimp only
    rw [htext, htext']
    split
    · exact after
    · exact ih after more more' (by omega) (by omega)

/-- The same cell is appended to the same word, or refused. -/
theorem compile (c : Cell) :
    Follows (Relaid (E := E)) excused (Act.compile c) (Act.compile c) := by
  intro m t h
  rw [Act.compile_apply, Act.compile_apply, h.underConstruction]
  split
  · exact .error h
  · next w under =>
    have grown : (t.dictionary.append w c).map Dictionary.erasePlaces =
        (m.dictionary.append w c).map Dictionary.erasePlaces := by
      rw [← Dictionary.append_erasePlaces, h.dictionary,
        Dictionary.append_erasePlaces]
    generalize t.dictionary.append w c = r' at grown
    generalize m.dictionary.append w c = r at grown
    cases r with
    | error f =>
      cases r' with
      | error f' =>
        cases grown
        exact .error h
      | ok d' => cases grown
    | ok d =>
      cases r' with
      | error f' => cases grown
      | ok d' =>
        have same : d'.erasePlaces = d.erasePlaces := Except.ok.inj grown
        exact .ok { h with dictionary := same, underConstruction := rfl }

theorem markImmediate :
    Follows (Relaid (E := E)) excused (CompileWord.act .immediate)
      (CompileWord.act .immediate) := by
  intro m t h
  rw [CompileWord.immediate_apply, CompileWord.immediate_apply,
    h.underConstruction]
  split
  · exact .error h
  · next w under =>
    have marked : (t.dictionary.markImmediate w).erasePlaces =
        (m.dictionary.markImmediate w).erasePlaces := by
      rw [← Dictionary.markImmediate_erasePlaces, h.dictionary,
        Dictionary.markImmediate_erasePlaces]
    exact .ok { h with dictionary := marked, underConstruction := rfl }

/-- The same word is created, in different places. -/
theorem createWord (name : String) :
    Follows (Relaid (E := E)) excused (Act.createWord name)
      (Act.createWord name) := by
  intro m t h
  have recorded := outward.record h (.creating name) (.creating name)
  generalize hm : m.record (.creating name) = m' at recorded
  generalize ht : t.record (.creating name) = t' at recorded
  have defined := m'.dictionary.define_erasePlaces
    (.ofCells name m'.definitionSite #[])
  have defined' := t'.dictionary.define_erasePlaces
    (.ofCells name t'.definitionSite #[])
  -- Without places the new words are the same, and a handle has no place.
  rw [recorded.dictionary] at defined'
  have same := Prod.ext_iff.1 (defined'.symm.trans defined)
  show Matches Relaid excused
    (.ok (m.createWord name).1 (m.createWord name).2)
    (.ok (t.createWord name).1 (t.createWord name).2)
  unfold Machine.createWord define
  rw [hm, ht]
  dsimp only at same ⊢
  rw [same.1]
  exact .ok { recorded with dictionary := same.2, underConstruction := rfl }

theorem congruence : WordCongruence (E := E) Relaid excused where
  executingName := fun h => h.executingName
  interpreting := fun h => h.interpreting
  names := fun {m t} h => by
    have names : t.dictionary.erasePlaces.names =
        m.dictionary.erasePlaces.names := by rw [h.dictionary]
    exact names
  isImmediate := fun h => h.isImmediate
  listing := fun h => h.listing
  definitionText := fun h => h.definitionText
  builtins := fun h => h.builtins
  memory := fun h => h.memory
  push := fun v m t h => by
    have pushed := congrArg (Stack.push · v) h.data
    exact .ok { h with data := pushed }
  pop := fun m t h => by
    rw [Act.pop_apply, Act.pop_apply, h.data]
    split
    · exact .error h
    · exact .ok { h with data := rfl }
  peek := fun n m t h => by
    rw [Act.peek_apply, Act.peek_apply, h.data]
    split
    · exact .error h
    · exact .ok h
  tokenText := fun m t h => by
    obtain ⟨text, after⟩ := h.nextToken
    have result (m : Machine E) :
        (Option.map Token.text <$> Act.nextToken?) m =
          .ok (m.nextToken.1.map Token.text) m.nextToken.2 := rfl
    rw [result, result, text]
    exact .ok after
  comment := fun m t h => by
    obtain ⟨texts, spells, spells'⟩ := h.spelled
    exact .ok (h.skipComment spells spells'
      (Nat.le_trans spells.length_le m.input.length_unread_le)
      (Nat.le_trans spells'.length_le t.input.length_unread_le))
  write := outward.write fun h => h.executingName
  compile := compile
  markImmediate := markImmediate
  setInterpreting := outward.setInterpreting
  createWord := createWord
  announce := outward.announce
  setVariable := outward.setVariable

/-- **Nothing but reading characters tells the layout.** -/
theorem lockstep :
    Lockstep Relaid (fun _ => False) (· == .console .key) where
  toWordCongruence := congruence
  share := fun h => h.toInStep
  body := fun h => h.body
  moves := fun h _ _ _ _ _ _ _ _ _ _ returns cursor base executing finished =>
    { h with
      returns := returns
      cursor := cursor
      base := base
      executing := executing
      finished := finished }
  forgets := fun h => by
    unfold forgetBlame
    rw [h.cursor, h.executing]
    split
    · exact { h with cursor := rfl, executing := rfl, blame := rfl }
    · exact h
  blames := fun {m t} h => by
    have trace : t.callTrace.map CallSite.erasePlace =
        m.callTrace.map CallSite.erasePlace := by
      rw [map_erasePlace_callTrace, map_erasePlace_callTrace, h.returns,
        h.cursor, h.executing]
    have blamed : t.blame.isNone = m.blame.isNone := by
      simpa using congrArg Option.isNone h.blame
    unfold captureBlame
    rw [blamed]
    split
    · exact { h with blame := congrArg some trace }
    · exact h
  traces := fun {m t} h c cell => by
    rw [traceStep_eq m, traceStep_eq t]
    exact { h with }
  prying := fun {b} pries reach f g => by
    have items (m t : Machine .none) (h : Relaid m t) :
        t.data.items = m.data.items := by rw [h.data]
    cases b with
    | stack w =>
      cases w with
      | depth | pick => exact (congruence.stacking items _ rfl).runs
      | _ => cases pries
    | console w =>
      cases w with
      | printStack => exact (congruence.printing items rfl).runs
      | key => cases reach
      | _ => cases pries
    | _ => cases pries
  maxDepth := fun _ => by
    refine Follows.get_bind (fun m t h => ?_) fun _ => congruence.push _
    rw [h.data]

/-- The failures are the same, places apart. -/
theorem recover (h : Relaid m t) (f : Fault) :
    (t.recover f).1.erasePlaces = (m.recover f).1.erasePlaces ∧
      Corresponds (m.recover f).2 (t.recover f).2 := by
  constructor
  · exact congrArg (Report.mk none f) h.blame
  · have recorded := outward.record
      (m := { m with blame := none }) (t := { t with blame := none })
      { h with blame := rfl } (.aborted f.message m.location)
      (.aborted f.message t.location)
    unfold Machine.recover resetRunState
    dsimp only
    exact { recorded with
      returns := congrArg Stack.clear recorded.returns
      cursor := rfl
      base := rfl
      executing := rfl
      interpreting := rfl }

end Relaid

/-- **Layout does not matter.**  A text that runs to its end, or fails, without
reading single characters does so wherever its tokens stand.  The machines
that are left correspond, and the failures are the same, places apart. -/
theorem processSource_relaid {n : Nat} {path path' text text' : String}
    {m : Machine .none}
    (same : (tokenize path' text').map Token.text =
      (tokenize path text).map Token.text)
    (avoids : Avoids (.console .key)
      (fun p => processSource p n path text) m) :
    (∀ a, processSource Primitives.pure n path text m = .ok () a →
      ∃ b, processSource Primitives.pure n path' text' m = .ok () b ∧
        Corresponds a b) ∧
    ∀ report a,
      processSource Primitives.pure n path text m =
        .error (.failed report) a →
      ∃ report' b,
        processSource Primitives.pure n path' text' m =
          .error (.failed report') b ∧
        report'.erasePlaces = report.erasePlaces ∧ Corresponds a b := by
  have spells := Source.spells_ofText (spells_tokenize path text) path
  have spells' := Source.spells_ofText (spells_tokenize path' text') path'
  rw [same] at spells'
  have start : Relaid { m with input := .ofText path text }
      { m with input := .ofText path' text' } :=
    ⟨⟨⟨rfl, rfl, rfl, rfl, rfl, rfl, rfl, rfl, rfl, rfl, rfl, rfl, rfl⟩,
      rfl, rfl, rfl⟩, rfl, rfl, ⟨_, spells, spells'⟩⟩
  constructor
  · intro a done
    obtain ⟨a', b', related, rfl, ran⟩ :=
      Relaid.lockstep.processSource_ok start (avoids.trans done)
    exact ⟨_, ran, { related with }⟩
  · intro report a failed
    rcases Relaid.lockstep.processSource_failed start (avoids.trans failed)
      with never | ⟨f, a', b', related, rfl, rfl, ran⟩
    · exact never.elim
    · obtain ⟨reported, left⟩ := related.recover f
      exact ⟨_, _, ran, reported, { left with }⟩

/-- What it comes to when a new machine runs a text, with the words given. -/
def negating (p : Primitives .none) (path text : String) :
    EStateM.Result (Halt Report) (Machine .none) Unit :=
  processSource p 100 path text origin

/-- A text in one line that negates 7. -/
def inLine : String := ": negate 0 swap - ; ( a note ) 7 negate"

/-- The same in several lines. -/
def inLines : String := "\n: negate\n\t0 swap - ;\n( a\nnote )\n 7 negate\n"

/-- Seven is negated from the lines of one path as from the single line of
another; and where there is nothing to negate, the fault is the same. -/
theorem negated_in_lines :
    (∃ b, negating Primitives.pure "b" inLines = .ok () b ∧
      Corresponds (leftBy (negating Primitives.pure "a" inLine)) b) ∧
    ∃ report b,
      negating Primitives.pure "b" "\n: negate\n\t0 swap - ;\n negate" =
        .error (.failed report) b ∧
      report.fault = .underflow .data := by
  have runs : isOk (negating Primitives.pure "a" inLine) = true ∧
      isOk (negating (Primitives.pure.without (· == .console .key)) "a"
        inLine) = true ∧
      faultOf (negating Primitives.pure "a" ": negate 0 swap - ; negate") =
        some (.underflow .data) ∧
      faultOf (negating (Primitives.pure.without (· == .console .key)) "a"
        ": negate 0 swap - ; negate") = some (.underflow .data) := by
    decide +kernel
  have tokens : (tokenize "b" inLines).map Token.text =
        (tokenize "a" inLine).map Token.text ∧
      (tokenize "b" "\n: negate\n\t0 swap - ;\n negate").map Token.text =
        (tokenize "a" ": negate 0 swap - ; negate").map Token.text := by
    decide +kernel
  obtain ⟨done, doneWithout, fault, faultWithout⟩ := runs
  obtain ⟨same, same'⟩ := tokens
  have cut (text : String) := processSource_cut
    (Primitives.pure_cut.without (· == .console .key)) (Nat.le_refl 100)
    "a" text
  constructor
  · have avoids : Avoids (.console .key)
        (fun p => processSource p 100 "a" inLine) origin :=
      avoids_of_isOk (cut _) doneWithout
    exact (processSource_relaid same avoids).1 _ (eq_ok_of_isOk done)
  · obtain ⟨report, failed, cause⟩ := exists_report fault
    obtain ⟨_, failedWithout, _⟩ := exists_report faultWithout
    have ends : Ends (negating (Primitives.pure.without (· == .console .key))
        "a" ": negate 0 swap - ; negate") := by
      rw [failedWithout]
      exact ends_failed _ _
    have avoids : AvoidsAll (· == .console .key)
        (fun p => processSource p 100 "a" ": negate 0 swap - ; negate")
        origin :=
      avoidsAll_of_ends (cut _) ends
    obtain ⟨report', b, ran, reported, _⟩ :=
      (processSource_relaid same' avoids).2 report _ failed
    have faults : report'.erasePlaces.fault = report.erasePlaces.fault := by
      rw [reported]
    exact ⟨report', b, ran, faults.trans cause⟩

end Machine

end Forth
