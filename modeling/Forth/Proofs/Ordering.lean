import Forth.Proofs.Arithmetic
import Forth.Proofs.Floats

/-!
# How values are ordered

Two integers are compared as they are, any other two numbers as floats, and
not all integers are different floats.  So two integers that equal the same
float need not be equal, and the order is not total on numbers.

It is a strict partial order nevertheless.  Every number that is not missing
has a magnitude, its place as a float, and magnitudes never go down from a
smaller integer to a larger one.  A number that is less than another has at
most its magnitude, and less unless both are integers; the other way round,
less magnitude makes less (`Ordered.of_magnitude`).  That settles all eight
mixes of integers and floats at once.

`Ordered` says for each pair of types what the order is.  The four words of
comparison differ in the orders that they accept, and `judges_of_comparison` is
about all of them.

Main statement: `values_partially_ordered`.
-/

namespace Forth

namespace Value

open Floats

/-- Numbers that are not missing. -/
def Counts : Value → Prop
  | int _ => True
  | float x => x.isNaN = false
  | _ => False

/-- Whether two values have an order, and one that passes a test. -/
def stands (test : Ordering → Bool) (a b : Value) : Bool :=
  (a.order? b).any test

/-- What `<` tests. -/
def less : Value → Value → Bool := stands Ordering.isLT

/-- What `<=` tests. -/
def atMost : Value → Value → Bool := stands Ordering.isLE

/-- What `>` tests. -/
def greater : Value → Value → Bool := stands Ordering.isGT

/-- What `>=` tests. -/
def atLeast : Value → Value → Bool := stands Ordering.isGE

/-- Whether two values have an order. -/
def comparable (a b : Value) : Bool := (a.order? b).isSome

/-- The place that a number has as a float. -/
def magnitude (a : Value) : Int := place a.toFloat.toModel.unpack

/-- At least one of two values is a float. -/
def OneFloat (a b : Value) : Prop := (∃ x, a = float x) ∨ ∃ y, b = float y

/-- Two values are of types that have an order, in which they stand so. -/
inductive Ordered (o : Ordering) : Value → Value → Prop
  | ints {m n : Int64} (same : compare m.toInt n.toInt = o) :
      Ordered o (int m) (int n)
  | numbers {a b : Value} (left : a.Counts) (right : b.Counts)
      (mixed : OneFloat a b)
      (same : compare a.magnitude b.magnitude = o) : Ordered o a b
  | strings {s t : String} (same : compare s t = o) :
      Ordered o (string s) (string t)
  | bools {p q : Bool} (same : compare p q = o) : Ordered o (bool p) (bool q)

variable {a b c : Value} {o : Ordering}

/-- The magnitude of a larger integer is not smaller. -/
theorem magnitude_mono {m n : Int64} (h : m.toInt ≤ n.toInt) :
    (int m).magnitude ≤ (int n).magnitude := by
  rw [show (int m).magnitude = intPlace m.toInt from place_ofInt m,
    show (int n).magnitude = intPlace n.toInt from place_ofInt n]
  exact intPlace_mono h

/-- Numbers count if they are not missing as floats. -/
theorem counts_iff :
    a.Counts ↔ a.isNumber = true ∧ a.toFloat.isNaN = false := by
  cases a with
  | int n => exact ⟨fun _ => ⟨rfl, isNaN_ofInt n⟩, fun _ => trivial⟩
  | float x => exact ⟨fun present => ⟨rfl, present⟩, fun h => h.2⟩
  | bool _ | string _ | word _ => exact ⟨False.elim, nofun⟩

/-- Two numbers are integers if neither is a float. -/
theorem oneFloat_or_ints (left : a.Counts) (right : b.Counts) :
    OneFloat a b ∨ ∃ m n, a = int m ∧ b = int n := by
  cases a with
  | int m =>
    cases b with
    | int n => exact .inr ⟨m, n, rfl, rfl⟩
    | float y => exact .inl (.inr ⟨y, rfl⟩)
    | bool _ | string _ | word _ => exact right.elim
  | float x => exact .inl (.inl ⟨x, rfl⟩)
  | bool _ | string _ | word _ => exact left.elim

/-- With a float in one place, the other must be a number, and the order is
that of magnitudes. -/
theorem order?_of_oneFloat (mixed : OneFloat a b) :
    a.order? b = some o ↔
      (a.Counts ∧ b.Counts) ∧ compare a.magnitude b.magnitude = o := by
  have asFloats : a.order? b =
      if areNumbers a b then floatOrder? a.toFloat b.toFloat else none := by
    rcases mixed with ⟨x, rfl⟩ | ⟨y, rfl⟩
    · cases b <;> rfl
    · cases a <;> rfl
  have count : (a.Counts ∧ b.Counts) ↔ areNumbers a b = true ∧
      ¬ (a.toFloat.isNaN || b.toFloat.isNaN) = true := by
    rw [counts_iff, counts_iff, areNumbers, Bool.and_eq_true, Bool.or_eq_true,
      not_or, Bool.not_eq_true, Bool.not_eq_true]
    tauto
  rw [asFloats, floatOrder?_eq, count]
  split_ifs with numbers missing <;> simp_all [magnitude]

/-- **Which order two values have.** -/
theorem order?_eq_some_iff : a.order? b = some o ↔ Ordered o a b := by
  constructor
  · intro found
    by_cases mixed : OneFloat a b
    · obtain ⟨⟨left, right⟩, same⟩ := (order?_of_oneFloat mixed).mp found
      exact .numbers left right mixed same
    · have noFloat {y : Float} : b ≠ float y := fun is =>
        mixed (.inr ⟨y, is⟩)
      cases a with
      | float x => exact absurd (.inl ⟨x, rfl⟩) mixed
      | int m =>
        cases b with
        | int n => exact .ints (Option.some.inj found)
        | float y => exact absurd rfl noFloat
        | bool _ | string _ | word _ => cases found
      | string s =>
        cases b with
        | string t => exact .strings (Option.some.inj found)
        | float y => exact absurd rfl noFloat
        | bool _ | int _ | word _ => cases found
      | bool p =>
        cases b with
        | bool q => exact .bools (Option.some.inj found)
        | float y => exact absurd rfl noFloat
        | int _ | string _ | word _ => cases found
      | word v =>
        cases b with
        | float y => exact absurd rfl noFloat
        | bool _ | int _ | string _ | word _ => cases found
  · intro ordered
    cases ordered with
    | ints same | strings same | bools same => exact congrArg some same
    | numbers left right mixed same =>
      exact (order?_of_oneFloat mixed).mpr ⟨⟨left, right⟩, same⟩

/-! ## Orders from the types -/

/-- Seen from the other value, the order is the other way round. -/
theorem Ordered.swap (h : Ordered o a b) : Ordered o.swap b a := by
  cases h with
  | ints same =>
    exact .ints (Std.OrientedCmp.eq_swap.trans (congrArg _ same))
  | strings same =>
    exact .strings (Std.OrientedCmp.eq_swap.trans (congrArg _ same))
  | bools same =>
    exact .bools (Std.OrientedCmp.eq_swap.trans (congrArg _ same))
  | numbers left right mixed same =>
    exact .numbers right left mixed.symm
      (Std.OrientedCmp.eq_swap.trans (congrArg _ same))

/-- A number that is less has at most the magnitude. -/
theorem Ordered.magnitude_le (h : Ordered .lt a b) (left : a.Counts) :
    a.magnitude ≤ b.magnitude := by
  cases h with
  | ints same => exact magnitude_mono (Int.le_of_lt (Int.compare_eq_lt.mp same))
  | numbers _ _ _ same => exact Int.le_of_lt (Int.compare_eq_lt.mp same)
  | strings _ | bools _ => exact left.elim

/-- **A number of less magnitude is less**, since a larger integer would not
have less. -/
theorem Ordered.of_magnitude (left : a.Counts) (right : b.Counts)
    (less : a.magnitude < b.magnitude) : Ordered .lt a b := by
  rcases oneFloat_or_ints left right with mixed | ⟨m, n, rfl, rfl⟩
  · exact .numbers left right mixed (Int.compare_eq_lt.mpr less)
  · refine .ints (Int.compare_eq_lt.mpr (Int.not_le.mp fun more => ?_))
    exact absurd (magnitude_mono more) (Int.not_le.mpr less)

/-- A number has an order only with another. -/
theorem Ordered.counts (h : Ordered o a b) (left : a.Counts) : b.Counts := by
  cases h with
  | ints _ => trivial
  | numbers _ right _ _ => exact right
  | strings _ | bools _ => exact left.elim

/-- **Less than less is less.** -/
theorem Ordered.trans (first : Ordered .lt a b) (second : Ordered .lt b c) :
    Ordered .lt a c := by
  cases first with
  | ints ab =>
    cases second with
    | ints bc => exact .ints (Std.TransCmp.lt_trans ab bc)
    | numbers _ right _ bc =>
      -- integers may have one magnitude, so the other step is the strict one
      have below := (Ordered.ints ab).magnitude_le trivial
      exact .of_magnitude trivial right
        (Int.lt_of_le_of_lt below (Int.compare_eq_lt.mp bc))
  | numbers left right _ ab =>
    have above := second.magnitude_le right
    exact .of_magnitude left (second.counts right)
      (Int.lt_of_lt_of_le (Int.compare_eq_lt.mp ab) above)
  | strings ab =>
    cases second with
    | strings bc => exact .strings (Std.TransCmp.lt_trans ab bc)
    | numbers left => exact left.elim
  | bools ab =>
    cases second with
    | bools bc => exact .bools (Std.TransCmp.lt_trans ab bc)
    | numbers left => exact left.elim

/-! ## What the words test -/

theorem less_iff : a.less b ↔ Ordered .lt a b := by
  rw [← order?_eq_some_iff, less, stands]
  rcases a.order? b with _ | _ | _ | _ <;> simp

theorem greater_iff : a.greater b ↔ Ordered .gt a b := by
  rw [← order?_eq_some_iff, greater, stands]
  rcases a.order? b with _ | _ | _ | _ <;> simp

/-- What is less than another the other is greater than. -/
theorem less_iff_greater : a.less b ↔ b.greater a := by
  rw [less_iff, greater_iff]
  exact ⟨Ordered.swap, Ordered.swap⟩

/-- Nothing is less than itself. -/
theorem not_less_self : ¬ a.less a := by
  rw [less_iff]
  intro ordered
  have lt := order?_eq_some_iff.mpr ordered
  have gt := order?_eq_some_iff.mpr ordered.swap
  rw [lt] at gt
  cases gt

/-- **What is comparable**: two numbers that are not missing, two strings and
two truth values. -/
theorem comparable_iff :
    a.comparable b ↔
      (a.Counts ∧ b.Counts) ∨ (∃ s t, a = string s ∧ b = string t) ∨
        ∃ p q, a = bool p ∧ b = bool q := by
  rw [comparable, Option.isSome_iff_exists]
  constructor
  · rintro ⟨o, found⟩
    cases order?_eq_some_iff.mp found with
    | ints _ => exact .inl ⟨trivial, trivial⟩
    | numbers left right _ _ => exact .inl ⟨left, right⟩
    | strings _ => exact .inr (.inl ⟨_, _, rfl, rfl⟩)
    | bools _ => exact .inr (.inr ⟨_, _, rfl, rfl⟩)
  · rintro (⟨left, right⟩ | ⟨s, t, rfl, rfl⟩ | ⟨p, q, rfl, rfl⟩)
    · rcases oneFloat_or_ints left right with mixed | ⟨m, n, rfl, rfl⟩
      · exact ⟨_, (order?_of_oneFloat mixed).mpr ⟨⟨left, right⟩, rfl⟩⟩
      · exact ⟨_, rfl⟩
    · exact ⟨_, rfl⟩
    · exact ⟨_, rfl⟩

/-- At most is not more, of what is comparable. -/
theorem atMost_iff : a.atMost b ↔ a.comparable b ∧ ¬ a.greater b := by
  rw [atMost, comparable, greater, stands, stands]
  rcases a.order? b with _ | _ | _ | _ <;> simp

/-- At least is not less, of what is comparable. -/
theorem atLeast_iff : a.atLeast b ↔ a.comparable b ∧ ¬ a.less b := by
  rw [atLeast, comparable, less, stands, stands]
  rcases a.order? b with _ | _ | _ | _ <;> simp

end Value

namespace Machine

variable {E : Embedding} {host : E.Code → Run E Unit} {n : Nat} {w : MathWord}

/-- A word of comparison, on any two values, pushes whether they stand in a
relation if they are comparable, and fails otherwise. -/
def Judges (host : E.Code → Run E Unit) (n : Nat) (w : MathWord)
    (relation : Value → Value → Bool) : Prop :=
  ∀ (m : Machine E) (a b : Value) (rest : List Value),
    m.data.items = b :: a :: rest →
      if a.comparable b
      then Computes host n m w (.bool (relation a b) :: rest)
      else Refuses host n m w rest

section Actions

variable {t : Machine E} {a b : Value} {o : Ordering} {rest : List Value}
  {test : Ordering → Bool}

theorem comparison_of_some (operands : t.data.items = b :: a :: rest)
    (found : a.order? b = some o) :
    ∃ data : Stack Value, data.items = .bool (test o) :: rest ∧
      MathWord.comparison test t = .ok () { t with data := data } := by
  obtain ⟨two, left, taken⟩ := bind_pops operands
  refine ⟨two.push (.bool (test o)), by rw [Stack.items_push, left], ?_⟩
  unfold MathWord.comparison
  rw [taken, found]
  rfl

/-- What has no order is told of with its types. -/
theorem comparison_of_none (operands : t.data.items = b :: a :: rest)
    (missing : a.order? b = none) :
    ∃ data : Stack Value, data.items = rest ∧
      MathWord.comparison test t =
        .error (.failed t.executingName
          ("can not compare " ++ a.typeName ++ " " ++ a.text ++ " with "
            ++ b.typeName ++ " " ++ b.text)) { t with data := data } := by
  obtain ⟨two, left, taken⟩ := bind_pops operands
  refine ⟨two, left, ?_⟩
  unfold MathWord.comparison
  rw [taken, missing]
  rfl

end Actions

/-- A word that compares judges by the test that it makes. -/
theorem judges_of_comparison {test : Ordering → Bool}
    (acts : w.act = (MathWord.comparison test : Act E Unit)) :
    Judges host n w (Value.stands test) := by
  intro m a b rest operands
  unfold Value.comparable Value.stands
  cases found : a.order? b with
  | some o =>
    refine computes_of_act fun t same => ?_
    rw [acts]
    exact comparison_of_some (by rw [same, operands]) found
  | none =>
    refine refuses_of_act fun t same => ?_
    rw [acts]
    exact ⟨_, comparison_of_none (by rw [same, operands]) found⟩

/-- The words of comparison judge by a strict partial order on all values, and
by what follows from it.  Nothing is assumed of floats. -/
theorem values_partially_ordered (host : E.Code → Run E Unit) (n : Nat)
    (a b c : Value) :
    (a.less b → b.less c → a.less c) ∧
    ¬ a.less a ∧
    (a.less b ↔ b.greater a) ∧
    (a.atMost b ↔ a.comparable b ∧ ¬ a.greater b) ∧
    (a.atLeast b ↔ a.comparable b ∧ ¬ a.less b) ∧
    (a.comparable b ↔
      (a.Counts ∧ b.Counts) ∨ (∃ s t, a = .string s ∧ b = .string t) ∨
        ∃ p q, a = .bool p ∧ b = .bool q) ∧
    Judges host n .less Value.less ∧
    Judges host n .lessEqual Value.atMost ∧
    Judges host n .greater Value.greater ∧
    Judges host n .greaterEqual Value.atLeast := by
  refine ⟨fun first second => ?_, Value.not_less_self, Value.less_iff_greater,
    Value.atMost_iff, Value.atLeast_iff, Value.comparable_iff,
    judges_of_comparison rfl, judges_of_comparison rfl,
    judges_of_comparison rfl, judges_of_comparison rfl⟩
  rw [Value.less_iff] at first second ⊢
  exact first.trans second

/-- A new machine with an integer below a float that is larger by two. -/
def integerBelowFloat : Machine .none :=
  { origin with
    data := (origin.data.push (.int 9007199254740992)).push
      (.float 9007199254740994) }

/-- That far out the next larger integer would be the same float as this one.
Between it and an integer larger by three lies the float, and `<` finds it
larger. -/
theorem integer_less_than_float :
    (Value.int 9007199254740992).less (.float 9007199254740994) ∧
    (Value.float 9007199254740994).less (.int 9007199254740995) ∧
    (Value.int 9007199254740992).less (.int 9007199254740995) ∧
    ∃ data : Stack Value, data.items = [.bool true] ∧
      execute Primitives.pure 1 (handleOf (.math .less)) integerBelowFloat =
        .ok () { integerBelowFloat.forgetBlame with data := data } := by
  obtain ⟨trans, -, -, -, -, -, judges, -⟩ :=
    values_partially_ordered Primitives.pure.host 0 (.int 9007199254740992)
      (.float 9007199254740994) (.int 9007199254740995)
  have first : (Value.int 9007199254740992).less (.float 9007199254740994) := by
    decide
  have second : (Value.float 9007199254740994).less (.int 9007199254740995) :=
    by decide
  have stocked : Stocked integerBelowFloat :=
    (stocked_new .unlimited none).of_same rfl rfl rfl
  have judged := judges integerBelowFloat (.int 9007199254740992)
    (.float 9007199254740994) [] rfl
  rw [if_pos (by decide), first] at judged
  exact ⟨first, second, trans first second,
    judged _ (stocked.body (.math .less))⟩

/-- Two integers that equal one float. -/
example :
    (Value.int 9007199254740992).equal (.float 9007199254740992) ∧
    (Value.float 9007199254740992).equal (.int 9007199254740993) ∧
    (Value.int 9007199254740992).less (.int 9007199254740993) := by
  decide

end Machine

end Forth
