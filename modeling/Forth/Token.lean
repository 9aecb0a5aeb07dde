import Forth.Source

/-!
# Tokens

A token is a maximal stretch of characters that are not blank, with the place
of its first character.  Blanks are the space, the tab, the carriage return,
the newline and the form feed, and nothing else: other white space of the
character set is part of tokens.
-/

namespace Forth

/-- The characters that separate tokens. -/
def isBlank (c : Char) : Bool :=
  c == ' ' || c == '\t' || c == '\r' || c == '\n' || c == '\x0c'

/-- A piece of source text and where it starts. -/
structure Token where
  location : Location
  text : String
deriving DecidableEq, Repr

/-- A token shown with its place, for diagnosis. -/
def Token.described (t : Token) : String :=
  t.location.text ++ ": " ++ t.text

namespace Source

/-- Hand out the next token, if there is one. -/
def nextToken (s : Source) : Option Token × Source :=
  let s := (s.takeWhile isBlank).2
  match s.peek with
  | (none, s) => (none, s)
  | (some _, s) =>
    let (text, rest) := s.takeWhile (fun c => !isBlank c)
    (some ⟨s.location, String.ofList text⟩, rest)

/-- The look at what is behind the blanks changes nothing, since there taking
them ends. -/
theorem nextToken_eq (s : Source) :
    s.nextToken =
      let t := (s.takeWhile isBlank).2
      match t.unread with
      | [] => (none, t)
      | _ :: _ =>
        (some ⟨t.location, String.ofList (t.takeWhile fun c => !isBlank c).1⟩,
          (t.takeWhile fun c => !isBlank c).2) := by
  unfold nextToken
  dsimp only
  rw [peek_eq, fill_takeWhile]
  cases (s.takeWhile isBlank).2.unread with
  | nil => rfl
  | cons c cs => rfl

/-- At the end there is none. -/
theorem nextToken_of_nil {s : Source} (h : s.unread = []) :
    s.nextToken = (none, s.fill) := by
  rw [nextToken_eq, takeWhile_of_nil h]
  dsimp only
  rw [s.unread_fill.trans h]

/-- At most `limit` tokens, in order. -/
def tokens : Nat → Source → List Token
  | 0, _ => []
  | limit + 1, s =>
    match s.nextToken with
    | (none, _) => []
    | (some t, rest) => t :: tokens limit rest

end Source

/-- All tokens of a text.  Each takes at least one character, so there are no
more of them than characters. -/
def tokenize (path text : String) : List Token :=
  (Source.ofText path text).tokens text.length

end Forth
