import Forth.Dictionary
import Forth.Proofs.Arithmetic
import Mathlib.Data.List.Induction

/-!
# Which texts are integers

A text is tried as a name, an integer, a float and a truth value, in that
order, and the four overlap: a word can be named `1`, and digits that are too
many for a machine integer make a float.  What the second attempt accepts is
said here by a grammar that knows nothing of how digits are read.

* `Writes` is the grammar: one sign or none, digits, and their value;
* `integer?_eq_some_iff` says that the reader accepts just that, as far as
  there is room;
* `translate_integers` draws the consequences for translation, in both
  directions: what becomes an integer, and that printing an integer or a
  truth value is undone.
-/

namespace Forth

namespace Numeral

/-- Decimal digits, at least one, and the number they write. -/
inductive Digits : List Char → Nat → Prop
  | digit {d : Nat} (small : d < 10) : Digits [d.digitChar] d
  | more {cs : List Char} {n d : Nat} (before : Digits cs n) (small : d < 10) :
    Digits (cs ++ [d.digitChar]) (10 * n + d)

/-- An optional sign and digits, and the integer they write. -/
inductive Writes : List Char → Int → Prop
  | plain {cs : List Char} {n : Nat} (digits : Digits cs n) : Writes cs n
  | plus {cs : List Char} {n : Nat} (digits : Digits cs n) :
    Writes ('+' :: cs) n
  | minus {cs : List Char} {n : Nat} (digits : Digits cs n) :
    Writes ('-' :: cs) (-(n : Int))

/-! ## Reading digits -/

/-- A character that is a digit is the one of a number below ten. -/
theorem exists_digitChar {c : Char} (digit : c.isDigit = true) :
    ∃ d, d < 10 ∧ c = d.digitChar ∧ c.toNat - '0'.toNat = d := by
  have bounds : 48 ≤ c.toNat ∧ c.toNat ≤ 57 := by
    rw [Char.isDigit, Bool.and_eq_true, decide_eq_true_eq,
      decide_eq_true_eq] at digit
    exact ⟨UInt32.le_iff_toNat_le.mp digit.1,
      UInt32.le_iff_toNat_le.mp digit.2⟩
  have small : c.toNat - '0'.toNat < 10 := by
    have zero : '0'.toNat = 48 := rfl
    omega
  refine ⟨c.toNat - '0'.toNat, small, ?_, rfl⟩
  apply Char.toNat_inj.mp
  rw [Nat.toNat_digitChar_of_lt_ten small]
  have zero : '0'.toNat = 48 := rfl
  omega

/-- Reading digits up to the last, and then that one. -/
theorem natural?_append_digit {cs : List Char} {n d : Nat} (small : d < 10)
    (read : natural? cs = some n) :
    natural? (cs ++ [d.digitChar]) = some (10 * n + d) := by
  unfold natural? at read ⊢
  split at read
  · next good =>
    cases read
    have value : d.digitChar.toNat - '0'.toNat = d :=
      Nat.toNat_digitChar_sub_48_of_lt_ten small
    rw [if_pos (by simp [good.2, small]), List.foldl_append]
    simp only [List.foldl_cons, List.foldl_nil, value]
  · cases read

/-- The reader of digits accepts just rows of digits, with their value. -/
theorem natural?_eq_some_iff {cs : List Char} {n : Nat} :
    natural? cs = some n ↔ Digits cs n := by
  constructor
  · intro read
    induction cs using List.reverseRecOn generalizing n with
    | nil => cases read
    | append_singleton cs c ih =>
      have last : c.isDigit = true := by
        unfold natural? at read
        split at read
        · next good => simpa using (List.all_eq_true.mp good.2) c (by simp)
        · cases read
      obtain ⟨d, small, rfl, -⟩ := exists_digitChar last
      cases front : natural? cs with
      | some k =>
        rw [natural?_append_digit small front] at read
        cases read
        exact .more (ih front) small
      | none =>
        have empty : cs = [] := by
          by_contra nonempty
          unfold natural? at read front
          simp_all
        subst empty
        have value : d.digitChar.toNat - 48 = d :=
          Nat.toNat_digitChar_sub_48_of_lt_ten small
        simp [natural?, small, value] at read
        rw [← read]
        exact .digit small
  · intro digits
    induction digits with
    | @digit d small =>
      have value : d.digitChar.toNat - 48 = d :=
        Nat.toNat_digitChar_sub_48_of_lt_ten small
      simp [natural?, small, value]
    | more before small ih => exact natural?_append_digit small ih

/-- Digits start with a digit, which is no sign. -/
theorem Digits.head {cs : List Char} {n : Nat} (digits : Digits cs n) :
    ∃ c rest, cs = c :: rest ∧ c.isDigit = true := by
  induction digits with
  | @digit d small => exact ⟨d.digitChar, [], rfl, by simp [small]⟩
  | more before small ih =>
    obtain ⟨c, rest, rfl, digit⟩ := ih
    exact ⟨c, rest ++ [_], rfl, digit⟩

theorem Digits.splitSign {cs : List Char} {n : Nat} (digits : Digits cs n) :
    splitSign cs = (false, cs) := by
  obtain ⟨c, rest, rfl, digit⟩ := digits.head
  have noMinus : c ≠ '-' := by
    rintro rfl
    cases digit
  have noPlus : c ≠ '+' := by
    rintro rfl
    cases digit
  unfold Numeral.splitSign
  split <;> simp_all

/-- What splitting off a sign comes to. -/
theorem splitSign_cases (cs : List Char) :
    (∃ rest, cs = '-' :: rest ∧ splitSign cs = (true, rest)) ∨
      (∃ rest, cs = '+' :: rest ∧ splitSign cs = (false, rest)) ∨
      splitSign cs = (false, cs) := by
  unfold splitSign
  split
  · exact .inl ⟨_, rfl, rfl⟩
  · exact .inr (.inl ⟨_, rfl, rfl⟩)
  · exact .inr (.inr rfl)

/-- The sign is put to the value of the digits. -/
theorem signed?_eq (cs : List Char) :
    signed? cs = (natural? (splitSign cs).2).map fun n : Nat =>
      if (splitSign cs).1 then -(n : Int) else n := by
  unfold signed?
  obtain ⟨negative, digits⟩ := splitSign cs
  dsimp only
  cases natural? digits <;> rfl

/-- The reader of integers accepts just what the grammar does. -/
theorem signed?_eq_some_iff {cs : List Char} {n : Int} :
    signed? cs = some n ↔ Writes cs n := by
  rw [signed?_eq]
  constructor
  · intro read
    obtain ⟨k, digits, value⟩ := Option.map_eq_some_iff.mp read
    rw [natural?_eq_some_iff] at digits
    rcases splitSign_cases cs with
      ⟨rest, rfl, split⟩ | ⟨rest, rfl, split⟩ | split
    · rw [split] at digits value
      rw [← value]
      exact .minus digits
    · rw [split] at digits value
      rw [← value]
      exact .plus digits
    · rw [split] at digits value
      rw [← value]
      exact .plain digits
  · intro writes
    cases writes with
    | plain digits =>
      rw [digits.splitSign, natural?_eq_some_iff.mpr digits]
      rfl
    | plus digits =>
      simp [splitSign, natural?_eq_some_iff.mpr digits]
    | minus digits =>
      simp [splitSign, natural?_eq_some_iff.mpr digits]

/-- No row of characters writes two integers. -/
theorem Writes.unique {cs : List Char} {n k : Int} (writes : Writes cs n)
    (again : Writes cs k) : n = k := by
  rw [← signed?_eq_some_iff] at writes again
  rw [writes] at again
  exact Option.some.inj again

/-- A text is read as an integer if it is written as the grammar says. -/
theorem integer?_eq_some_iff {text : String} {k : Int64} :
    integer? text = some k ↔ Writes text.toList k.toInt := by
  unfold integer?
  constructor
  · intro read
    obtain ⟨n, signed, narrow⟩ := Option.bind_eq_some_iff.mp read
    rw [Exact.narrow?_eq_some_iff.mp narrow]
    exact signed?_eq_some_iff.mp signed
  · intro writes
    rw [signed?_eq_some_iff.mpr writes]
    exact Exact.narrow?_eq_some_iff.mpr rfl

/-! ## Printing -/

/-- The decimal digits of a number write it. -/
theorem digits_toDigits (n : Nat) : Digits (Nat.toDigits 10 n) n := by
  induction n using Nat.strong_induction_on with
  | _ n ih =>
    by_cases small : n < 10
    · rw [Nat.toDigits_of_lt_base small]
      exact .digit small
    · rw [Nat.toDigits_of_base_le (by decide) (by omega)]
      have more := Digits.more (ih (n / 10) (by omega))
        (Nat.mod_lt n (by decide : 0 < 10))
      rw [Nat.div_add_mod] at more
      exact more

/-- What an integer is printed as writes it. -/
theorem writes_text (n : Int) : Writes (toString n).toList n := by
  cases n with
  | ofNat k =>
    have printed : (toString (Int.ofNat k)).toList = Nat.toDigits 10 k :=
      Nat.toList_repr
    rw [printed]
    exact .plain (digits_toDigits k)
  | negSucc k =>
    have printed : (toString (Int.negSucc k)).toList =
        '-' :: Nat.toDigits 10 (k + 1) := by
      show ("-" ++ (k + 1).repr).toList = _
      rw [String.toList_append, Nat.toList_repr]
      rfl
    rw [printed]
    exact .minus (digits_toDigits (k + 1))

/-! ## Truth values are no numbers -/

/-- A text that starts with neither a digit nor a point is no fraction. -/
theorem fraction?_of_letter {c : Char} {cs : List Char}
    (noDigit : c.isDigit = false) (noPoint : c ≠ '.') :
    fraction? (c :: cs) = none := by
  unfold fraction?
  rw [List.span_eq_takeWhile_dropWhile,
    List.takeWhile_cons_of_neg (by simp [noDigit]),
    List.dropWhile_cons_of_neg (by simp [noDigit])]
  dsimp only
  split
  · next digits exponent read _ =>
    split at read
    · next same =>
      cases same
      exact absurd rfl noPoint
    · cases read
  · rfl

/-- In whatever case the letters are, the name of a truth value is read
neither as an integer nor as a float. -/
theorem reads_of_truth {text : String} {b : Bool}
    (spelled : text.toList.map Char.toLower = (boolText b).toList) :
    integer? text = none ∧ float? text = none := by
  obtain ⟨c, cs, chars, lower⟩ : ∃ c cs, text.toList = c :: cs ∧
      (c.toLower = 't' ∨ c.toLower = 'f') := by
    cases chars : text.toList with
    | nil =>
      rw [chars] at spelled
      cases b <;> cases spelled
    | cons c cs =>
      rw [chars] at spelled
      refine ⟨c, cs, rfl, ?_⟩
      cases b
      · exact .inr (List.cons.inj spelled).1
      · exact .inl (List.cons.inj spelled).1
  have apart : ∀ d : Char, d.toLower = d → d ≠ 't' → d ≠ 'f' → c ≠ d := by
    rintro d self noT noF rfl
    rw [self] at lower
    exact lower.elim noT noF
  have noDigit : c.isDigit = false := by
    rw [Bool.eq_false_iff]
    intro digit
    have plain : ∀ d < 10, (Nat.digitChar d).toLower = Nat.digitChar d ∧
        Nat.digitChar d ≠ 't' ∧ Nat.digitChar d ≠ 'f' := by decide
    obtain ⟨d, small, same, -⟩ := exists_digitChar digit
    obtain ⟨self, noT, noF⟩ := plain d small
    exact apart _ self noT noF same
  have noSign : splitSign (c :: cs) = (false, c :: cs) := by
    have noMinus := apart '-' rfl (by decide) (by decide)
    have noPlus := apart '+' rfl (by decide) (by decide)
    unfold splitSign
    split <;> simp_all
  constructor
  · unfold integer?
    rw [chars, signed?_eq, noSign, natural?, if_neg (by simp [noDigit])]
    rfl
  · unfold float? named?
    rw [chars] at spelled ⊢
    rw [noSign]
    dsimp only
    rw [fraction?_of_letter noDigit (apart '.' rfl (by decide) (by decide)),
      spelled]
    cases b <;> rfl

end Numeral

namespace Dictionary

open Numeral

variable {E : Embedding} {d : Dictionary E} {text : String}

/-- Integers come from the second attempt only. -/
theorem translate_eq_int_iff {k : Int64} :
    d.translate text = .int k ↔
      d.lookup text = none ∧ Writes text.toList k.toInt := by
  rw [← integer?_eq_some_iff]
  unfold translate
  split
  · next w found => simp [found]
  · next missing =>
    split
    · next n read => simp [missing, read]
    · next unread =>
      split
      · simp [unread]
      · split <;> simp [unread]

/-- The name of a truth value, in any letter case, becomes that truth value.
-/
theorem translate_of_truth {b : Bool} (free : d.lookup text = none)
    (spelled : text.toList.map Char.toLower = (boolText b).toList) :
    d.translate text = .bool b := by
  obtain ⟨noInteger, noFloat⟩ := reads_of_truth spelled
  unfold translate
  rw [free, noInteger, noFloat]
  dsimp only
  rw [spelled]
  cases b <;> rfl

/-- Translation finds names first.  Of other texts it makes an integer just
where an integer is written that has room, and it undoes the printing of
integers and of truth values. -/
theorem translate_integers (d : Dictionary E) :
    (∀ text w, d.lookup text = some w → d.translate text = .word w) ∧
    (∀ text k, d.lookup text = none →
      (d.translate text = .int k ↔ Writes text.toList k.toInt)) ∧
    (∀ text n, d.lookup text = none → Writes text.toList n →
      Exact.InRange n → ∃ k : Int64, k.toInt = n ∧ d.translate text = .int k) ∧
    (∀ text n, Writes text.toList n → ¬ Exact.InRange n →
      ∀ k, d.translate text ≠ .int k) ∧
    (∀ k, d.lookup (Value.int k).text = none →
      d.translate (Value.int k).text = .int k) ∧
    ∀ b, d.lookup (Value.bool b).text = none →
      d.translate (Value.bool b).text = .bool b := by
  refine ⟨?_, ?_, ?_, ?_, ?_, ?_⟩
  · intro text w found
    unfold translate
    rw [found]
  · intro text k free
    rw [translate_eq_int_iff]
    simp [free]
  · intro text n free writes fits
    obtain ⟨k, -, value⟩ := Exact.exists_narrow? fits
    refine ⟨k, value, translate_eq_int_iff.mpr ⟨free, ?_⟩⟩
    rw [value]
    exact writes
  · intro text n writes outside k becomes
    obtain ⟨-, again⟩ := translate_eq_int_iff.mp becomes
    rw [writes.unique again] at outside
    exact outside (Exact.inRange_toInt k)
  · intro k free
    exact translate_eq_int_iff.mpr ⟨free, writes_text k.toInt⟩
  · intro b free
    refine translate_of_truth free ?_
    cases b <;> decide

/-- In a new machine the least integer is read back, and the digits that
would make one more than the greatest are no integer. -/
theorem extremes_translated :
    Machine.origin.dictionary.translate (Value.int Int64.minValue).text =
      .int Int64.minValue ∧
    ∀ k, Machine.origin.dictionary.translate "9223372036854775808" ≠
      .int k := by
  obtain ⟨-, -, -, outside, printed, -⟩ :=
    translate_integers Machine.origin.dictionary
  have free : Machine.origin.dictionary.lookup
      (Value.int Int64.minValue).text = none := by decide +kernel
  have digits : toString (2 ^ 63 : Int) = "9223372036854775808" := by
    decide +kernel
  have writes := writes_text (2 ^ 63)
  rw [digits] at writes
  exact ⟨printed _ free, outside _ _ writes (by decide)⟩

end Dictionary

end Forth
