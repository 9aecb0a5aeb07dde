import Forth.Proofs.Moves
import Forth.Proofs.Stocked
import Mathlib.Algebra.Order.Floor.Ring
import Mathlib.Data.Rat.Floor

/-!
# Integer arithmetic is exact or fails

Nothing that the words of arithmetic do to two integers ever wraps.  For sum,
difference and product that is `narrow?_eq_some_iff`.  Division is less
plain: it comes from the quotient rounded toward zero, and two corrections,
one of the quotient and one of the rest, each with a test of its own and each
made in machine integers.

* `FloorDivides` is what quotient and rest should be: the quotient is rounded
  down, and the rest has the sign of the divisor;
* `floorDivides_truncated` says that the two corrections, which look at
  different signs, lead there together;
* `StepsFit` is that the operations made on the way have room;
* `integer_arithmetic_exact` is about the words: which values they leave, and
  when they refuse.
-/

namespace Forth

namespace Exact

/-- The integers that a machine integer can stand for. -/
def InRange (n : Int) : Prop := -2 ^ 63 ≤ n ∧ n ≤ 2 ^ 63 - 1

instance (n : Int) : Decidable (InRange n) :=
  inferInstanceAs (Decidable (_ ∧ _))

theorem inRange_toInt (k : Int64) : InRange k.toInt :=
  ⟨Int64.minValue_le_toInt k, Int64.toInt_le k⟩

/-- Narrowing fails just outside of the range. -/
theorem narrow?_eq_none_iff {n : Int} : narrow? n = none ↔ ¬ InRange n := by
  have bounds : (Int64.minValue.toInt ≤ n ∧ n ≤ Int64.maxValue.toInt) ↔
      InRange n := Iff.rfl
  rw [narrow?, ← bounds]
  split <;> simp_all

/-- An integer in range narrows to the machine integer that stands for it. -/
theorem exists_narrow? {n : Int} (fits : InRange n) :
    ∃ k, narrow? n = some k ∧ k.toInt = n := by
  cases narrowed : narrow? n with
  | none => exact absurd fits (narrow?_eq_none_iff.mp narrowed)
  | some k => exact ⟨k, rfl, narrow?_eq_some_iff.mp narrowed⟩

/-! ## Rounding down -/

/-- The quotient of two integers rounded down, and what it leaves over. -/
structure FloorDivides (a b q r : Int) : Prop where
  dividend : a = q * b + r
  floor : q = ⌊(a : ℚ) / b⌋
  /-- The rest has the sign of the divisor. -/
  sign : r = 0 ∨ (r < 0 ↔ b < 0)
  small : |r| < |b|

/-- A rest of the sign of the divisor makes the quotient the floor. -/
theorem eq_floor {a b q r : Int} (dividend : a = q * b + r)
    (sign : r = 0 ∨ (r < 0 ↔ b < 0)) (small : |r| < |b|) :
    q = ⌊(a : ℚ) / b⌋ := by
  have nonzero : b ≠ 0 := by
    rintro rfl
    exact absurd small (by simp)
  have split : (a : ℚ) / b = q + (r : ℚ) / b := by
    have cast : (b : ℚ) ≠ 0 := by exact_mod_cast nonzero
    rw [dividend]
    push_cast
    field_simp
  have bounds : 0 ≤ (r : ℚ) / b ∧ (r : ℚ) / b < 1 := by
    rcases lt_or_gt_of_ne nonzero with neg | pos
    · have low : b < r ∧ r ≤ 0 := by
        rw [abs_of_neg neg] at small
        have := abs_lt.mp small
        omega
      have castNeg : (b : ℚ) < 0 := by exact_mod_cast neg
      constructor
      · exact div_nonneg_of_nonpos (by exact_mod_cast low.2) castNeg.le
      · rw [div_lt_one_of_neg castNeg]
        exact_mod_cast low.1
    · have low : 0 ≤ r ∧ r < b := by
        rw [abs_of_pos pos] at small
        have := abs_lt.mp small
        omega
      have castPos : (0 : ℚ) < b := by exact_mod_cast pos
      constructor
      · exact div_nonneg (by exact_mod_cast low.1) castPos.le
      · rw [div_lt_one castPos]
        exact_mod_cast low.2
  symm
  rw [split, Int.floor_eq_iff]
  constructor <;> linarith [bounds.1, bounds.2]

/-- What is left over after rounding toward zero has the sign of the
dividend. -/
theorem tmod_bounds (a : Int) {b : Int} (nonzero : b ≠ 0) :
    (0 ≤ a → 0 ≤ a.tmod b) ∧ (a ≤ 0 → a.tmod b ≤ 0) ∧
      |a.tmod b| < |b| := by
  refine ⟨fun h => Int.tmod_nonneg b h, fun h => ?_, ?_⟩
  · have := Int.tmod_nonneg b (Int.neg_nonneg_of_nonpos h)
    rw [Int.neg_tmod] at this
    omega
  · rw [Int.abs_eq_natAbs, Int.abs_eq_natAbs, Int.natAbs_tmod]
    exact_mod_cast Nat.mod_lt _ (Int.natAbs_pos.mpr nonzero)

/-- Whether rounding toward zero was rounding up. -/
def Rounded (a b : Int) : Prop := a.tmod b ≠ 0 ∧ (a < 0) ≠ (b < 0)

instance (a b : Int) : Decidable (Rounded a b) := by
  unfold Rounded
  infer_instance

/-- Where rounding toward zero was rounding up, one less is the floor, and
the rest grows by the divisor. -/
theorem floorDivides_truncated (a : Int) {b : Int} (nonzero : b ≠ 0) :
    FloorDivides a b
      (if Rounded a b then a.tdiv b - 1 else a.tdiv b)
      (if Rounded a b then a.tmod b + b else a.tmod b) := by
  have whole : a = a.tdiv b * b + a.tmod b := (Int.tdiv_mul_add_tmod a b).symm
  obtain ⟨nonneg, nonpos, small⟩ := tmod_bounds a nonzero
  have build : ∀ {q r : Int}, a = q * b + r → (r = 0 ∨ (r < 0 ↔ b < 0)) →
      |r| < |b| → FloorDivides a b q r := fun dividend sign small =>
    ⟨dividend, eq_floor dividend sign small, sign, small⟩
  split
  · next rounded =>
    obtain ⟨rest, signs⟩ := rounded
    -- The rest and the divisor lie on different sides of zero.
    rcases lt_or_gt_of_ne nonzero with neg | pos
    · have positive : 0 < a.tmod b := by
        have : ¬ a < 0 := fun h => signs (by simp [h, neg])
        have := nonneg (by omega)
        omega
      rw [abs_of_neg neg, abs_of_pos positive] at small
      refine build (by linarith) (.inr (by omega)) ?_
      rw [abs_of_neg neg, abs_of_neg (by omega)]
      omega
    · have negative : a.tmod b < 0 := by
        have : a < 0 := by
          by_contra h
          exact signs (by simp [h, not_lt.mpr pos.le])
        have := nonpos (by omega)
        omega
      rw [abs_of_pos pos, abs_of_neg negative] at small
      refine build (by linarith) (.inr (by omega)) ?_
      rw [abs_of_pos pos, abs_of_pos (by omega)]
      omega
  · next straight =>
    refine build whole ?_ small
    by_cases rest : a.tmod b = 0
    · exact .inl rest
    · have signs : (a < 0) = (b < 0) := by
        by_contra h
        exact straight ⟨rest, h⟩
      rw [eq_iff_iff] at signs
      rw [← signs]
      omega

/-! ## The steps in machine integers -/

section Steps

variable {a b q r : Int64}

theorem quotient?_eq_some_iff :
    quotient? a b = some q ↔ b ≠ 0 ∧ q.toInt = a.toInt.tdiv b.toInt := by
  unfold quotient?
  split
  · next zero => simp [zero]
  · next nonzero => simp [nonzero, narrow?_eq_some_iff]

/-- The one quotient of a divisor other than zero that has no room is that
of the least integer by minus one. -/
theorem inRange_tdiv_iff {a b : Int} (fits : InRange a) (nonzero : b ≠ 0) :
    InRange (a.tdiv b) ↔ ¬ (a = -2 ^ 63 ∧ b = -1) := by
  unfold InRange at *
  have size : (a.tdiv b).natAbs = a.natAbs / b.natAbs :=
    Int.natAbs_tdiv a b
  by_cases unit : b = 1 ∨ b = -1
  · rcases unit with rfl | rfl
    · rw [Int.tdiv_one]
      omega
    · rw [Int.tdiv_neg, Int.tdiv_one]
      omega
  · have half : a.natAbs / b.natAbs ≤ a.natAbs / 2 :=
      Nat.div_le_div_left (by omega) (by omega)
    constructor <;> omega

theorem quotient?_eq_none_iff :
    quotient? a b = none ↔ b = 0 ∨ (a = Int64.minValue ∧ b = -1) := by
  have least : a = Int64.minValue ↔ a.toInt = -2 ^ 63 := by
    rw [← Int64.toInt_inj]
    rfl
  have minusOne : b = -1 ↔ b.toInt = -1 := by
    rw [← Int64.toInt_inj]
    rfl
  unfold quotient?
  split
  · next zero => simp [zero]
  · next nonzero =>
    have castNonzero : b.toInt ≠ 0 := by
      intro h
      exact nonzero (Int64.toInt_inj.mp h)
    rw [narrow?_eq_none_iff, inRange_tdiv_iff (inRange_toInt a) castNonzero,
      not_not, least, minusOne]
    simp [nonzero]

/-- There is a rest just where there is a quotient. -/
theorem remainder?_eq_some_iff :
    remainder? a b = some r ↔ (quotient? a b).isSome ∧ r = a % b := by
  unfold remainder?
  cases quotient? a b <;> simp [eq_comm]

theorem roundsUp_iff : roundsUp r a b = true ↔
    r.toInt ≠ 0 ∧ (a.toInt < 0) ≠ (b.toInt < 0) := by
  have zero : r = 0 ↔ r.toInt = 0 := by
    rw [← Int64.toInt_inj]
    rfl
  have negative : ∀ k : Int64, k < 0 ↔ k.toInt < 0 := fun k =>
    Int64.lt_iff_toInt_lt
  simp [roundsUp, zero, negative]

/-- The test that the quotient is corrected by. -/
theorem roundsUp_dividend :
    roundsUp (a % b) a b = true ↔ Rounded a.toInt b.toInt := by
  rw [roundsUp_iff, Int64.toInt_mod]
  rfl

/-- The test that the rest is corrected by, which looks at the sign of the
rest itself, comes out the same. -/
theorem roundsUp_rest (nonzero : b.toInt ≠ 0) :
    roundsUp (a % b) (a % b) b = true ↔ Rounded a.toInt b.toInt := by
  obtain ⟨nonneg, nonpos, -⟩ := tmod_bounds a.toInt nonzero
  rw [roundsUp_iff, Int64.toInt_mod]
  refine and_congr_right fun rest => ?_
  have signs : (a.toInt.tmod b.toInt < 0) = (a.toInt < 0) := by
    rw [eq_iff_iff]
    omega
  rw [signs]

theorem toInt_ne_zero (nonzero : b ≠ 0) : b.toInt ≠ 0 := by
  intro h
  exact nonzero (Int64.toInt_inj.mp h)

/-- A machine integer that stands for one less, if that is in range. -/
theorem toInt_sub_one (fits : InRange (q.toInt - 1)) :
    (q - 1).toInt = q.toInt - 1 := by
  have one : (1 : Int64).toInt = 1 := rfl
  rw [Int64.toInt_sub, one]
  unfold InRange at fits
  exact Int.bmod_eq_of_le (by omega) (by omega)

/-- A machine integer that stands for a sum, if that is in range. -/
theorem toInt_add_of_inRange (fits : InRange (a.toInt + b.toInt)) :
    (a + b).toInt = a.toInt + b.toInt := by
  rw [Int64.toInt_add]
  unfold InRange at fits
  exact Int.bmod_eq_of_le (by omega) (by omega)

/-- The machine operations that are made on the way to quotient and rest have
room for their results, and no rest is asked for where there is none. -/
structure StepsFit (a b : Int64) : Prop where
  /-- The rest of a division is asked for only after its quotient. -/
  divides : ∀ q, quotient? a b = some q →
    b ≠ 0 ∧ ¬ (a = Int64.minValue ∧ b = -1)
  quotient : ∀ q, quotient? a b = some q → roundsUp (a % b) a b = true →
    InRange (q.toInt - 1)
  rest : ∀ r, remainder? a b = some r → roundsUp r r b = true →
    InRange (r.toInt + b.toInt)

theorem stepsFit (a b : Int64) : StepsFit a b where
  divides q found := by
    rw [← not_or, ← quotient?_eq_none_iff, found]
    exact Option.some_ne_none q
  quotient q found up := by
    obtain ⟨nonzero, value⟩ := quotient?_eq_some_iff.mp found
    obtain ⟨rest, -⟩ := roundsUp_dividend.mp up
    have low := (inRange_toInt a).1
    have high := (inRange_toInt a).2
    have divisor := toInt_ne_zero nonzero
    -- Something is left over, so that the divisor is at least two in size.
    have size : 2 ≤ b.toInt.natAbs := by
      by_contra small
      have unit : b.toInt = 1 ∨ b.toInt = -1 := by omega
      rcases unit with one | minusOne
      · simp [one] at rest
      · simp [minusOne] at rest
    have half : a.toInt.natAbs / b.toInt.natAbs ≤ a.toInt.natAbs / 2 :=
      Nat.div_le_div_left size (by omega)
    have abs : (a.toInt.tdiv b.toInt).natAbs =
      a.toInt.natAbs / b.toInt.natAbs := Int.natAbs_tdiv _ _
    unfold InRange
    omega
  rest r found up := by
    obtain ⟨_, rfl⟩ := remainder?_eq_some_iff.mp found
    obtain ⟨-, signs⟩ := roundsUp_iff.mp up
    have rest := inRange_toInt (a % b)
    have divisor := inRange_toInt b
    rw [ne_eq, eq_iff_iff] at signs
    unfold InRange at *
    omega

/-- Both corrections together give what the integers give. -/
theorem floorDivides_corrected (found : quotient? a b = some q) :
    ∃ q' r', floorDiv? a b = some q' ∧ floorMod? a b = some r' ∧
      FloorDivides a.toInt b.toInt q'.toInt r'.toInt := by
  obtain ⟨nonzero, value⟩ := quotient?_eq_some_iff.mp found
  have left : remainder? a b = some (a % b) :=
    remainder?_eq_some_iff.mpr ⟨by rw [found]; rfl, rfl⟩
  have rest : (a % b).toInt = a.toInt.tmod b.toInt := Int64.toInt_mod a b
  have divisor := toInt_ne_zero nonzero
  have floored := floorDivides_truncated a.toInt divisor
  unfold floorDiv? floorMod?
  rw [found, left]
  refine ⟨_, _, rfl, rfl, ?_⟩
  dsimp only
  by_cases rounded : Rounded a.toInt b.toInt
  · have upQuotient := roundsUp_dividend.mpr rounded
    have upRest := (roundsUp_rest divisor).mpr rounded
    have fitsQuotient := (stepsFit a b).quotient q found upQuotient
    have fitsRest := (stepsFit a b).rest (a % b) left upRest
    rw [if_pos rounded, if_pos rounded] at floored
    rw [if_pos upQuotient, if_pos upRest, toInt_sub_one fitsQuotient,
      toInt_add_of_inRange fitsRest, value, rest]
    exact floored
  · have straightQuotient := mt roundsUp_dividend.mp rounded
    have straightRest := mt (roundsUp_rest divisor).mp rounded
    rw [if_neg rounded, if_neg rounded] at floored
    rw [if_neg straightQuotient, if_neg straightRest, value, rest]
    exact floored

/-- Without a quotient there is neither. -/
theorem floorDiv?_of_none (missing : quotient? a b = none) :
    floorDiv? a b = none ∧ floorMod? a b = none := by
  simp [floorDiv?, floorMod?, remainder?, missing]

/-- The floor of a quotient has no room just where the quotient rounded
toward zero has none. -/
theorem inRange_floor_iff (nonzero : b ≠ 0) :
    InRange ⌊(a.toInt : ℚ) / b.toInt⌋ ↔
      ¬ (a = Int64.minValue ∧ b = -1) := by
  cases found : quotient? a b with
  | some q =>
    obtain ⟨q', r', -, -, divides⟩ := floorDivides_corrected found
    rw [← divides.floor]
    exact iff_of_true (inRange_toInt q') ((stepsFit a b).divides q found).2
  | none =>
    obtain zero | ⟨rfl, rfl⟩ := quotient?_eq_none_iff.mp found
    · exact absurd zero nonzero
    · have value : ⌊((Int64.minValue.toInt : Int) : ℚ) /
          ((-1 : Int64).toInt : Int)⌋ = 2 ^ 63 := by
        have least : Int64.minValue.toInt = -2 ^ 63 := rfl
        have minusOne : (-1 : Int64).toInt = -1 := rfl
        rw [least, minusOne]
        norm_num
      rw [value]
      simp [InRange]

end Steps

end Exact

namespace Machine

open Exact

variable {E : Embedding} {host : E.Code → Run E Unit} {n : Nat}
  {m : Machine E} {h : Handle} {w : MathWord} {a b : Int64}
  {rest results : List Value}

/-- A word of arithmetic, under any name, ends well with the given values on
the data stack, and changes nothing else. -/
def Computes (host : E.Code → Run E Unit) (n : Nat) (m : Machine E)
    (w : MathWord) (results : List Value) : Prop :=
  ∀ h, m.dictionary.body h = .builtin (.math w) →
    ∃ data : Stack Value, data.items = results ∧
      execute (.standard host) (n + 1) h m =
        .ok () { m.forgetBlame with data := data }

/-- A word of arithmetic, under any name, fails as native words do, blames
itself, and leaves the given values. -/
def Refuses (host : E.Code → Run E Unit) (n : Nat) (m : Machine E)
    (w : MathWord) (left : List Value) : Prop :=
  ∀ h, m.dictionary.body h = .builtin (.math w) →
    ∃ message t, execute (.standard host) (n + 1) h m =
        .error (.failed (.failed h.name message)) t ∧ t.data.items = left

/-- A word of arithmetic gives an integer where there is room for it, and
fails otherwise. -/
def Exactly (host : E.Code → Run E Unit) (n : Nat) (m : Machine E)
    (w : MathWord) (result : Int) (rest : List Value) : Prop :=
  (∀ k : Int64, k.toInt = result → Computes host n m w (.int k :: rest)) ∧
    (¬ InRange result → Refuses host n m w rest)

/-- To execute a native word is to do what it does, as the one at work. -/
theorem execute_math (body : m.dictionary.body h = .builtin (.math w)) :
    execute (.standard host) (n + 1) h m =
      invoke h w.act.run m.forgetBlame :=
  execute_builtin _ n body

/-! ### What the actions do -/

section Actions

variable {t : Machine E} {k : Int64}

/-- The value on top is taken, for what is done with it. -/
theorem bind_pop {v : Value} (top : t.data.items = v :: rest) :
    ∃ data : Stack Value, data.items = rest ∧
      ∀ {α : Type} (act : Value → Act E α),
        (Act.pop >>= act) t = act v { t with data := data } := by
  obtain ⟨data, taken, below⟩ := Stack.pop?_of_cons top
  refine ⟨data, below, fun act => ?_⟩
  rw [Act.bind_apply, Act.pop_apply, taken]

/-- Two operands are taken, the one on top first. -/
theorem bind_pops {u v : Value} (operands : t.data.items = v :: u :: rest) :
    ∃ data : Stack Value, data.items = rest ∧
      ∀ {α : Type} (act : Value → Value → Act E α),
        (do let b ← Act.pop; let a ← Act.pop; act b a) t =
          act v u { t with data := data } := by
  obtain ⟨one, below, first⟩ := bind_pop operands
  obtain ⟨two, left, second⟩ := bind_pop (t := { t with data := one }) below
  exact ⟨two, left, fun act => (first _).trans (second _)⟩

theorem arithmetic_of_some {onInts : Int64 → Int64 → Option Int64}
    {onFloats : Float → Float → Float}
    (operands : t.data.items = .int b :: .int a :: rest)
    (found : onInts a b = some k) :
    ∃ data : Stack Value, data.items = .int k :: rest ∧
      MathWord.arithmetic onInts onFloats t =
        .ok () { t with data := data } := by
  obtain ⟨two, left, taken⟩ := bind_pops operands
  refine ⟨two.push (.int k), by rw [Stack.items_push, left], ?_⟩
  unfold MathWord.arithmetic
  rw [taken]
  dsimp only
  rw [found]
  rfl

theorem arithmetic_of_none {onInts : Int64 → Int64 → Option Int64}
    {onFloats : Float → Float → Float}
    (operands : t.data.items = .int b :: .int a :: rest)
    (missing : onInts a b = none) :
    ∃ message, ∃ data : Stack Value, data.items = rest ∧
      MathWord.arithmetic onInts onFloats t =
        .error (.failed t.executingName message) { t with data := data } := by
  obtain ⟨two, left, taken⟩ := bind_pops operands
  refine ⟨"integer overflow", two, left, ?_⟩
  unfold MathWord.arithmetic
  rw [taken]
  dsimp only
  rw [missing]
  rfl

/-- With two integers there is no text to join. -/
theorem addition_of_ints
    (operands : t.data.items = .int b :: .int a :: rest) :
    MathWord.addition t = MathWord.arithmetic Exact.add? (· + ·) t := by
  unfold MathWord.addition
  rw [Act.bind_apply, Act.peek_apply]
  unfold Stack.peek?
  rw [operands]
  dsimp only [List.getElem?_cons_zero]
  rw [Act.bind_apply, Act.peek_apply]
  unfold Stack.peek?
  rw [operands]
  rfl

/-- A divisor that is not zero is put back. -/
theorem division_of_nonzero
    (operands : t.data.items = .int b :: .int a :: rest)
    (nonzero : MathWord.isZero (.int b) = false) :
    ∃ data : Stack Value, data.items = .int b :: .int a :: rest ∧
      MathWord.division t =
        MathWord.arithmetic Exact.floorDiv? (· / ·)
          { t with data := data } := by
  obtain ⟨one, below, taken⟩ := bind_pop operands
  refine ⟨one.push (.int b), by rw [Stack.items_push, below], ?_⟩
  unfold MathWord.division
  rw [taken, nonzero]
  rfl

theorem division_of_zero
    (operands : t.data.items = .int b :: .int a :: rest)
    (zero : MathWord.isZero (.int b) = true) :
    ∃ message, ∃ data : Stack Value, data.items = .int a :: rest ∧
      MathWord.division t =
        .error (.failed t.executingName message) { t with data := data } := by
  obtain ⟨one, below, taken⟩ := bind_pop operands
  refine ⟨"division by zero", one, below, ?_⟩
  unfold MathWord.division
  rw [taken, zero]
  rfl

/-- An integer is taken as such. -/
theorem bind_popInt (top : t.data.items = .int b :: rest) :
    ∃ data : Stack Value, data.items = rest ∧
      ∀ {α : Type} (act : Int64 → Act E α),
        (Act.popInt >>= act) t = act b { t with data := data } := by
  obtain ⟨data, left, taken⟩ := bind_pop top
  refine ⟨data, left, fun act => ?_⟩
  rw [Act.bind_apply, Act.popInt, taken]
  rfl

theorem bind_popInts (operands : t.data.items = .int b :: .int a :: rest) :
    ∃ data : Stack Value, data.items = rest ∧
      ∀ {α : Type} (act : Int64 → Int64 → Act E α),
        (do let b ← Act.popInt; let a ← Act.popInt; act b a) t =
          act b a { t with data := data } := by
  obtain ⟨one, below, first⟩ := bind_popInt operands
  obtain ⟨two, left, second⟩ := bind_popInt (t := { t with data := one }) below
  exact ⟨two, left, fun act => (first _).trans (second _)⟩

theorem divisionWithRest_of_some {q r : Int64}
    (operands : t.data.items = .int b :: .int a :: rest)
    (nonzero : b ≠ 0) (quotient : floorDiv? a b = some q)
    (remainder : floorMod? a b = some r) :
    ∃ data : Stack Value, data.items = .int q :: .int r :: rest ∧
      MathWord.divisionWithRest t = .ok () { t with data := data } := by
  obtain ⟨two, left, taken⟩ := bind_popInts operands
  refine ⟨(two.push (.int r)).push (.int q), ?_, ?_⟩
  · rw [Stack.items_push, Stack.items_push, left]
  · unfold MathWord.divisionWithRest
    rw [taken, quotient, remainder, if_neg (by simp [nonzero])]
    rfl

theorem divisionWithRest_of_none
    (operands : t.data.items = .int b :: .int a :: rest)
    (missing : quotient? a b = none) :
    ∃ message, ∃ data : Stack Value, data.items = rest ∧
      MathWord.divisionWithRest t =
        .error (.failed t.executingName message) { t with data := data } := by
  obtain ⟨two, left, taken⟩ := bind_popInts operands
  obtain ⟨noQuotient, -⟩ := floorDiv?_of_none missing
  refine ⟨if b = 0 then "division by zero" else "integer overflow", two, left,
    ?_⟩
  unfold MathWord.divisionWithRest
  rw [taken]
  by_cases zero : b = 0
  · rw [if_pos zero, if_pos (by simp [zero])]
    rfl
  · rw [if_neg zero, if_neg (by simp [zero]), noQuotient]
    rfl

end Actions

/-! ### What the words do -/

theorem computes_of_act
    (done : ∀ t : Machine E, t.data = m.data → ∃ data : Stack Value,
      data.items = results ∧ w.act t = .ok () { t with data := data }) :
    Computes host n m w results := by
  intro h body
  have same : m.forgetBlame.data = m.data := by rw [forgetBlame_eq]
  obtain ⟨data, items, run⟩ :=
    done { m.forgetBlame with executing := some h } same
  refine ⟨data, items, ?_⟩
  rw [execute_math body, invoke_of_ok (Act.run_of_ok run)]

theorem refuses_of_act
    (failed : ∀ t : Machine E, t.data = m.data → ∃ message,
      ∃ data : Stack Value, data.items = results ∧
        w.act t =
          .error (.failed t.executingName message) { t with data := data }) :
    Refuses host n m w results := by
  intro h body
  have same : m.forgetBlame.data = m.data := by rw [forgetBlame_eq]
  obtain ⟨message, data, items, run⟩ :=
    failed { m.forgetBlame with executing := some h } same
  have halted : w.act.run { m.forgetBlame with executing := some h } =
      .error (.failed (.failed h.name message))
        { m.forgetBlame with executing := some h, data := data } := by
    rw [Act.run_apply, run]
    rfl
  refine ⟨message, _, (execute_math body).trans (invoke_of_failed halted), ?_⟩
  dsimp only
  rw [captureBlame_eq]
  exact items

/-- Sum, difference and product, given what the word does to its operands. -/
theorem exactly_of_arithmetic {result : Int}
    {onInts : Int64 → Int64 → Option Int64} {onFloats : Float → Float → Float}
    (operands : m.data.items = .int b :: .int a :: rest)
    (acts : ∀ t : Machine E, t.data.items = .int b :: .int a :: rest →
      w.act t = MathWord.arithmetic onInts onFloats t)
    (narrows : onInts a b = narrow? result) :
    Exactly host n m w result rest := by
  constructor
  · intro k value
    refine computes_of_act fun t same => ?_
    have top : t.data.items = .int b :: .int a :: rest := by
      rw [same, operands]
    have found : onInts a b = some k :=
      narrows.trans (narrow?_eq_some_iff.mpr value)
    rw [acts t top]
    exact arithmetic_of_some top found
  · intro outside
    refine refuses_of_act fun t same => ?_
    have top : t.data.items = .int b :: .int a :: rest := by
      rw [same, operands]
    have missing : onInts a b = none :=
      narrows.trans (narrow?_eq_none_iff.mpr outside)
    rw [acts t top]
    exact arithmetic_of_none top missing

/-- Whether the two words of division can do anything with their operands.
-/
def Divisible (a b : Int64) : Prop :=
  b ≠ 0 ∧ InRange ⌊(a.toInt : ℚ) / b.toInt⌋

theorem divisible_iff : Divisible a b ↔ (quotient? a b).isSome := by
  rw [Option.isSome_iff_ne_none, ne_eq, quotient?_eq_none_iff, not_or]
  exact and_congr_right inRange_floor_iff

/-- Quotient and rest, given that the test for zero, which is made on floats,
tells whether the divisor is zero. -/
theorem computes_division (operands : m.data.items = .int b :: .int a :: rest)
    (divisible : Divisible a b)
    (zeroTest : (Value.int b).toFloat == 0.0 ↔ b = 0) :
    ∃ q r : Int64, FloorDivides a.toInt b.toInt q.toInt r.toInt ∧
      Computes host n m .div (.int q :: rest) ∧
      Computes host n m .divMod (.int q :: .int r :: rest) := by
  obtain ⟨k, found⟩ := Option.isSome_iff_exists.mp (divisible_iff.mp divisible)
  obtain ⟨q, r, quotient, remainder, divides⟩ := floorDivides_corrected found
  have nonzero : MathWord.isZero (.int b) = false := by
    rw [Bool.eq_false_iff]
    intro zero
    simp only [MathWord.isZero, Value.isNumber, Bool.true_and] at zero
    exact divisible.1 (zeroTest.mp zero)
  refine ⟨q, r, divides, ?_, ?_⟩
  · refine computes_of_act fun t same => ?_
    obtain ⟨data, again, acts⟩ := division_of_nonzero (t := t)
      (by rw [same, operands]) nonzero
    rw [MathWord.act, acts]
    exact arithmetic_of_some (t := { t with data := data }) again quotient
  · refine computes_of_act fun t same => ?_
    exact divisionWithRest_of_some (by rw [same, operands]) divisible.1
      quotient remainder

/-- Without a quotient both words of division refuse. -/
theorem refuses_division (operands : m.data.items = .int b :: .int a :: rest)
    (indivisible : ¬ Divisible a b) :
    (∃ left, Refuses host n m .div left) ∧ Refuses host n m .divMod rest := by
  have missing : quotient? a b = none := by
    rw [divisible_iff] at indivisible
    simpa using indivisible
  obtain ⟨noQuotient, -⟩ := floorDiv?_of_none missing
  constructor
  · cases zero : MathWord.isZero (.int b) with
    | true =>
      refine ⟨.int a :: rest, refuses_of_act fun t same => ?_⟩
      exact division_of_zero (by rw [same, operands]) zero
    | false =>
      refine ⟨rest, refuses_of_act fun t same => ?_⟩
      obtain ⟨data, again, acts⟩ := division_of_nonzero (t := t)
        (by rw [same, operands]) zero
      rw [MathWord.act, acts]
      exact arithmetic_of_none (t := { t with data := data }) again noQuotient
  · refine refuses_of_act fun t same => ?_
    exact divisionWithRest_of_none (by rw [same, operands]) missing

/-- On any two integers the words of arithmetic are exact or fail.  Of floats
all that matters is that an integer is zero as a float just if it is zero. -/
theorem integer_arithmetic_exact (host : E.Code → Run E Unit) (n : Nat)
    (operands : m.data.items = .int b :: .int a :: rest)
    (zeroTest : (Value.int b).toFloat == 0.0 ↔ b = 0) :
    Exactly host n m .add (a.toInt + b.toInt) rest ∧
    Exactly host n m .sub (a.toInt - b.toInt) rest ∧
    Exactly host n m .mul (a.toInt * b.toInt) rest ∧
    (Divisible a b ↔ ¬ (b = 0 ∨ (a = Int64.minValue ∧ b = -1))) ∧
    (Divisible a b → ∃ q r : Int64,
      FloorDivides a.toInt b.toInt q.toInt r.toInt ∧
      Computes host n m .div (.int q :: rest) ∧
      Computes host n m .divMod (.int q :: .int r :: rest)) ∧
    (¬ Divisible a b →
      (∃ left, Refuses host n m .div left) ∧ Refuses host n m .divMod rest) ∧
    StepsFit a b := by
  refine ⟨?_, ?_, ?_, ?_, ?_, ?_, stepsFit a b⟩
  · exact exactly_of_arithmetic operands (fun t top => addition_of_ints top) rfl
  · exact exactly_of_arithmetic operands (fun t _ => rfl) rfl
  · exact exactly_of_arithmetic operands (fun t _ => rfl) rfl
  · rw [divisible_iff, Option.isSome_iff_ne_none, ne_eq, quotient?_eq_none_iff]
  · intro divisible
    exact computes_division operands divisible zeroTest
  · intro indivisible
    exact refuses_division operands indivisible

/-- A new machine with minus seven below two. -/
def minusSevenByTwo : Machine .none :=
  { origin with data := (origin.data.push (.int (-7))).push (.int 2) }

/-- There `/mod` leaves the floor of the quotient above the rest. -/
theorem minusSeven_floored : ∃ q r : Int64,
    FloorDivides (-7) 2 q.toInt r.toInt ∧ ∃ data : Stack Value,
      data.items = [.int q, .int r] ∧
      execute Primitives.pure 1 (handleOf (.math .divMod)) minusSevenByTwo =
        .ok () { minusSevenByTwo.forgetBlame with data := data } := by
  have operands : minusSevenByTwo.data.items =
      .int 2 :: .int (-7) :: [] := rfl
  have zeroTest : (Value.int 2).toFloat == 0.0 ↔ (2 : Int64) = 0 := by decide
  obtain ⟨-, -, -, divisible, computes, -, -⟩ :=
    integer_arithmetic_exact Primitives.pure.host 0 operands zeroTest
  obtain ⟨q, r, divides, -, divMod⟩ := computes (divisible.mpr (by decide))
  have stocked : Stocked minusSevenByTwo :=
    (stocked_new .unlimited none).of_same rfl rfl rfl
  exact ⟨q, r, divides, divMod _ (stocked.body (.math .divMod))⟩

end Machine

end Forth
