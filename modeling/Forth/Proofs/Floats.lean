import Forth.Value
import Mathlib

/-!
# How floats are ordered

A float is unpacked into a sign, a mantissa and an exponent before it is
compared.  All floats that are not missing have a **place** on a line of
integers, which is what their bits show but for the sign, and to compare two
floats is to compare their places (`compare_eq_place`).  A missing float
compares with nothing.

An integer becomes a float by rounding to nearest, ties to even.  The mantissa
is shifted to the right until it fits, and of what falls out two bits are
kept.  The shift and the decision that these bits make both go up with the
integer (`rounded_mono`).  A mantissa that overflows when it is rounded has
the place behind the last one of its length, so the places go up across
lengths as well (`natPlace_mono`).

Main statements: `floatOrder?_eq`, and `place_ofInt` with `intPlace_mono` for
the conversion.
-/

namespace Forth.Floats

open Float.Model Float.Model.UnpackedFloat

/-! ## Places -/

/-- The place of an unpacked float among all others. -/
def place : UnpackedFloat → Int
  | .notANumber | .zero _ => 0
  | .infinity s => s.apply (2 ^ 65)
  | .finite s m e _ => s.apply ((e + 1074) * 2 ^ 52 + m)

/-- A mantissa and an exponent as finite floats have them: 53 bits, or fewer
at the smallest exponent. -/
structure Fitting (m : Nat) (e : Int) : Prop where
  mantissa : m < 2 ^ 53
  least : -1074 ≤ e
  greatest : e ≤ 971
  normal : 2 ^ 52 ≤ m ∨ e = -1074

/-- An unpacked float that can be packed. -/
def Canonical : UnpackedFloat → Prop
  | .finite _ m e _ => Fitting m e
  | _ => True

/-- Exponents are compared first, then mantissas. -/
theorem compare_finite {m₁ m₂ : Nat} {e₁ e₂ : Int} (h₁ : Fitting m₁ e₁)
    (h₂ : Fitting m₂ e₂) :
    (compare e₁ e₂).then (compare m₁ m₂) =
      compare ((e₁ + 1074) * 2 ^ 52 + m₁) ((e₂ + 1074) * 2 ^ 52 + m₂) := by
  have := h₁.mantissa
  have := h₂.mantissa
  have := h₁.least
  have := h₂.least
  rcases Int.lt_trichotomy e₁ e₂ with less | rfl | more
  · have upper := h₂.normal
    rw [Int.compare_eq_lt.mpr less, Int.compare_eq_lt.mpr (by omega)]
    rfl
  · rw [Int.compare_eq_eq.mpr rfl]
    show compare m₁ m₂ = _
    rcases Nat.lt_trichotomy m₁ m₂ with less | rfl | more
    · rw [Nat.compare_eq_lt.mpr less, Int.compare_eq_lt.mpr (by omega)]
    · rw [Nat.compare_eq_eq.mpr rfl, Int.compare_eq_eq.mpr rfl]
    · rw [Nat.compare_eq_gt.mpr more, Int.compare_eq_gt.mpr (by omega)]
  · have upper := h₁.normal
    rw [Int.compare_eq_gt.mpr more, Int.compare_eq_gt.mpr (by omega)]
    rfl

/-- The other way round with the other sign. -/
theorem compare_neg (a b : Int) : compare (-a) (-b) = compare b a := by
  rcases Int.lt_trichotomy a b with less | rfl | more
  · rw [Int.compare_eq_gt.mpr less, Int.compare_eq_gt.mpr (by omega)]
  · rw [Int.compare_eq_eq.mpr rfl, Int.compare_eq_eq.mpr rfl]
  · rw [Int.compare_eq_lt.mpr more, Int.compare_eq_lt.mpr (by omega)]

/-- Finite floats lie between zero and infinity. -/
theorem Fitting.between {m : Nat} {e : Int} (h : Fitting m e) (hm : 0 < m) :
    0 < (e + 1074) * 2 ^ 52 + m ∧ (e + 1074) * 2 ^ 52 + m < 2 ^ 65 := by
  obtain ⟨_, _, _, _⟩ := h
  omega

/-- **To compare two floats is to compare their places.** -/
theorem compare_eq_place {a b : UnpackedFloat} (ha : Canonical a)
    (hb : Canonical b) (a_present : a ≠ .notANumber)
    (b_present : b ≠ .notANumber) :
    a.compare b = some (compare (place a) (place b)) := by
  have lt {x y : Int} (less : x < y) : some Ordering.lt = some (compare x y) :=
    congrArg some (Int.compare_eq_lt.mpr less).symm
  have gt {x y : Int} (more : y < x) : some Ordering.gt = some (compare x y) :=
    congrArg some (Int.compare_eq_gt.mpr more).symm
  cases a with
  | notANumber => exact absurd rfl a_present
  | infinity s =>
    cases b with
    | notANumber => exact absurd rfl b_present
    | infinity r => cases s <;> cases r <;> rfl
    | zero r => cases s <;> rfl
    | finite r m e hm =>
      have between := Fitting.between hb hm
      cases s with
      | positive => exact gt (by cases r <;> simp [place, Sign.apply] <;> omega)
      | negative => exact lt (by cases r <;> simp [place, Sign.apply] <;> omega)
  | zero s =>
    cases b with
    | notANumber => exact absurd rfl b_present
    | infinity r => cases r <;> rfl
    | zero r => rfl
    | finite r m e hm =>
      have between := Fitting.between hb hm
      cases r with
      | positive => exact lt between.1
      | negative => exact gt (Int.neg_neg_of_pos between.1)
  | finite s m e hm =>
    have between := Fitting.between ha hm
    cases b with
    | notANumber => exact absurd rfl b_present
    | infinity r =>
      cases r with
      | positive => cases s <;> exact lt (by simp [place, Sign.apply]; omega)
      | negative => cases s <;> exact gt (by simp [place, Sign.apply]; omega)
    | zero r =>
      cases s with
      | positive => exact gt between.1
      | negative => exact lt (Int.neg_neg_of_pos between.1)
    | finite r m' e' hm' =>
      have between' := Fitting.between hb hm'
      cases s with
      | positive =>
        cases r with
        | positive => exact congrArg some (compare_finite ha hb)
        | negative => exact gt (by simp only [place, Sign.apply]; omega)
      | negative =>
        cases r with
        | positive => exact lt (by simp only [place, Sign.apply]; omega)
        | negative =>
          show some _ = some (compare (-_) (-_))
          rw [compare_neg, compare_finite ha hb, Int.compare_swap]

/-! ## Packing -/

theorem toNat_append_one {w : Nat} (v : BitVec w) :
    (1#1 ++ v).toNat = 2 ^ w + v.toNat := by
  rw [BitVec.toNat_append, ← Nat.shiftLeft_add_eq_or_of_lt v.isLt]
  simp [Nat.shiftLeft_eq]

/-- What is unpacked can be packed. -/
theorem canonical_unpack (b : BitVec Format.binary64.numBits) :
    Canonical (UnpackedFloat.unpack .binary64 b) := by
  have fraction : (unpackMantissa b).toNat < 2 ^ 52 := (unpackMantissa b).isLt
  have exponent : (unpackExponent b).toNat < 2 ^ 11 := (unpackExponent b).isLt
  have bias : Format.binary64.exponentBias = 1023 := rfl
  unfold UnpackedFloat.unpack
  dsimp only
  rw [bias]
  split
  · split <;> exact trivial
  · next below =>
    have below' : (unpackExponent b).toNat ≠ 2047 := fun same =>
      below (BitVec.eq_of_toNat_eq same)
    split
    · next least =>
      have least' : (unpackExponent b).toNat = 0 := congrArg BitVec.toNat least
      split
      · exact trivial
      · show Fitting _ _
        constructor <;> omega
    · next above =>
      have above' : (unpackExponent b).toNat ≠ 0 := fun same =>
        above (BitVec.eq_of_toNat_eq same)
      have mantissa : (1#1 ++ unpackMantissa b).toNat =
          2 ^ 52 + (unpackMantissa b).toNat := toNat_append_one _
      show Fitting _ _
      rw [mantissa]
      constructor <;> omega

/-- With an exponent that is neither the smallest nor the greatest, the
components are unpacked again. -/
theorem unpack_packComponents {spec : Format} (s : Sign)
    {e : BitVec spec.exponentBits}
    (m : BitVec spec.mantissaBitsWithoutImplicit) (notTop : e ≠ -1#_)
    (notBottom : e ≠ 0#_) :
    UnpackedFloat.unpack spec (packComponents spec s e m) =
      .finite s (1#1 ++ m).toNat
        (e.toNat - (spec.exponentBias + spec.mantissaBitsWithoutImplicit))
        (by simp) := by
  unfold UnpackedFloat.unpack
  simp only [unpackMantissa_packComponents, unpackExponent_packComponents,
    unpackSign_packComponents, Sign.ofBitVec_toBitVec, if_neg notTop,
    if_neg notBottom]

/-- **What can be packed with a full mantissa is unpacked again.** -/
theorem unpack_pack {s : Sign} {m : Nat} {e : Int} (fit : Fitting m e)
    (full : 2 ^ 52 ≤ m) (hm : 0 < m) :
    UnpackedFloat.unpack .binary64
      (UnpackedFloat.pack .binary64 (.finite s m e hm)) = .finite s m e hm := by
  obtain ⟨h₁, h₂, h₃, _⟩ := fit
  have log : m.log2 + 1 = Format.binary64.mantissaBits :=
    congrArg Nat.succ ((Nat.log2_eq_iff (by omega)).mpr ⟨full, h₁⟩)
  obtain ⟨k, hk⟩ : ∃ k : Nat, (k : Int) = e + 1075 :=
    ⟨(e + 1075).toNat, Int.toNat_of_nonneg (by omega)⟩
  have biased : (e + Format.binary64.exponentBias +
      Format.binary64.mantissaBitsWithoutImplicit).toNat = k := by
    show (e + (1023 : Nat) + (52 : Nat)).toNat = k
    omega
  have exponent : (BitVec.ofNat 11 k).toNat = k := by
    rw [BitVec.toNat_ofNat]
    omega
  have mantissa : (1#1 ++ BitVec.ofNat 52 m).toNat = m := by
    rw [toNat_append_one, BitVec.toNat_ofNat]
    omega
  have notTop : BitVec.ofNat 11 k ≠ -1#_ := fun same => by
    have top := congrArg BitVec.toNat same
    rw [exponent] at top
    have : (-1#11).toNat = 2047 := rfl
    omega
  have notBottom : BitVec.ofNat 11 k ≠ 0#_ := fun same => by
    have bottom := congrArg BitVec.toNat same
    rw [exponent] at bottom
    have : (0#11).toNat = 0 := rfl
    omega
  have small : ¬ 2 ^ Format.binary64.exponentBits ≤ k + 1 := by
    show ¬ 2 ^ 11 ≤ k + 1
    omega
  have packed : UnpackedFloat.pack .binary64 (.finite s m e hm) =
      packComponents .binary64 s (BitVec.ofNat _ k) (BitVec.ofNat _ m) := by
    unfold UnpackedFloat.pack
    simp only [biased, if_neg small, if_pos log]
  have parts {m' : Nat} {e' : Int} {hm' : 0 < m'} (h : m' = m) (h' : e' = e) :
      UnpackedFloat.finite s m' e' hm' = .finite s m e hm := by
    subst h h'
    rfl
  rw [packed, unpack_packComponents s _ notTop notBottom]
  refine parts mantissa ?_
  show ((BitVec.ofNat 11 k).toNat : Int) - ((1023 : Nat) + (52 : Nat)) = e
  rw [exponent]
  omega

/-! ## Rounding -/

/-- A mantissa and its two residual bits as one number. -/
def weight (em : ExtendedMantissa) : Nat :=
  4 * em.mantissa + 2 * em.roundBit.toNat + em.stickyBit.toNat

theorem weight_shiftRightOne (em : ExtendedMantissa) :
    weight em.shiftRightOne = 2 * (weight em / 4) + min 1 (weight em % 4) := by
  obtain ⟨m, r, s⟩ := em
  unfold weight ExtendedMantissa.shiftRightOne
  rcases Nat.mod_two_eq_zero_or_one m with even | odd
  · cases r <;> cases s <;> simp [even] <;> omega
  · cases r <;> cases s <;> simp [odd] <;> omega

/-- Half of a larger number is larger. -/
theorem weight_shiftRightOne_mono {em em' : ExtendedMantissa}
    (h : weight em ≤ weight em') :
    weight em.shiftRightOne ≤ weight em'.shiftRightOne := by
  rw [weight_shiftRightOne, weight_shiftRightOne]
  omega

theorem roundedMantissa_eq (em : ExtendedMantissa) :
    em.roundedMantissa = (weight em + 1 + weight em / 4 % 2) / 4 := by
  obtain ⟨m, r, s⟩ := em
  have whole : weight ⟨m, r, s⟩ / 4 = m := by
    unfold weight
    cases r <;> cases s <;> simp <;> omega
  rw [whole]
  unfold weight
  cases r <;> cases s <;>
    simp [ExtendedMantissa.roundedMantissa, ExtendedMantissa.accuracy,
      Accuracy.roundToNearestEven] <;> omega

/-- A larger number is rounded to a larger one. -/
theorem roundedMantissa_mono {em em' : ExtendedMantissa}
    (h : weight em ≤ weight em') :
    em.roundedMantissa ≤ em'.roundedMantissa := by
  rw [roundedMantissa_eq, roundedMantissa_eq]
  refine Nat.div_le_div_right ?_
  rcases Nat.lt_or_eq_of_le h with less | same
  · omega
  · exact Nat.le_of_eq (by rw [same])

/-- A mantissa of which a number of bits are rounded away. -/
def rounded (m k : Nat) : Nat :=
  (ExtendedMantissa.ofMantissaAndAccuracy m .exact >>> k).roundedMantissa

/-- **Rounding goes up.** -/
theorem rounded_mono {m m' : Nat} (h : m ≤ m') (k : Nat) :
    rounded m k ≤ rounded m' k := by
  refine roundedMantissa_mono ?_
  show weight (Nat.repeat _ k _) ≤ weight (Nat.repeat _ k _)
  induction k with
  | zero => exact Nat.add_le_add_right (Nat.add_le_add_right
      (Nat.mul_le_mul_left 4 h) _) _
  | succ k ih => exact weight_shiftRightOne_mono ih

/-- Zeros are rounded away without a trace. -/
theorem rounded_mul (q k : Nat) : rounded (q * 2 ^ k) k = q := by
  have shifted (q : Nat) : Nat.repeat ExtendedMantissa.shiftRightOne k
      (.ofMantissaAndAccuracy (q * 2 ^ k) .exact) =
        .ofMantissaAndAccuracy q .exact := by
    induction k generalizing q with
    | zero => rw [Nat.pow_zero, Nat.mul_one]; rfl
    | succ k ih =>
      have twice : q * 2 ^ (k + 1) = 2 * q * 2 ^ k := by
        rw [Nat.pow_succ]
        ac_rfl
      rw [Nat.repeat, twice, ih]
      simp [ExtendedMantissa.shiftRightOne,
        ExtendedMantissa.ofMantissaAndAccuracy]
  show (Nat.repeat ExtendedMantissa.shiftRightOne k _).roundedMantissa = q
  rw [shifted]
  rfl

/-- A mantissa that has 53 bits left has 53 bits when it is rounded, or is the
power of two behind them. -/
theorem rounded_bounds {m k : Nat} (h : m.log2 = 52 + k) (hm : m ≠ 0) :
    2 ^ 52 ≤ rounded m k ∧ rounded m k ≤ 2 ^ 53 := by
  obtain ⟨lower, upper⟩ := (Nat.log2_eq_iff hm).mp h
  rw [Nat.add_right_comm] at upper
  rw [Nat.pow_add] at lower upper
  have low := rounded_mono lower k
  have high := rounded_mono (Nat.le_of_lt upper) k
  rw [rounded_mul] at low high
  exact ⟨low, high⟩

/-- A mantissa with bits to spare is shifted until 53 are left. -/
theorem shiftToTargetExponent_eq {m k : Nat} {e : Int}
    (h : m.log2 = 52 + k) (least : -1074 ≤ e + k) :
    shiftToTargetExponent .binary64 m e .exact =
      (ExtendedMantissa.ofMantissaAndAccuracy m .exact >>> k, e + k) := by
  have target : Format.binary64.targetExponent (totalExponent m e) = e + k := by
    unfold totalExponent
    rw [h]
    show max (((52 + k : Nat) : Int) + 1 + e - ((1 + 52 : Nat) : Int)) (-1074)
      = e + k
    omega
  have amount : (e + (k : Int) - e).toNat = k := by omega
  unfold shiftToTargetExponent shiftToExponent
  simp only [target, amount]

/-- An unpacked float of a sign, with a full mantissa, at a place. -/
def StandsAt (s : Sign) (p : Int) (u : UnpackedFloat) : Prop :=
  ∃ m e hm, u = .finite s m e hm ∧ Fitting m e ∧ 2 ^ 52 ≤ m ∧
    (e + 1074) * 2 ^ 52 + m = p

/-- What is rounded is shifted once more, since it may have overflowed. -/
theorem roundWithAccuracy_eq (s : Sign) {m k m' : Nat} {e e' : Int}
    {em : ExtendedMantissa} (h : m.log2 = 52 + k) (least : -1074 ≤ e + k)
    (again : shiftToTargetExponent .binary64 (rounded m k) (e + k) .exact =
      (em, e')) (left : em.mantissa = m') (some : 0 < m') :
    roundWithAccuracy .binary64 s m e .exact = .finite s m' e' some := by
  subst left
  have first : (ExtendedMantissa.ofMantissaAndAccuracy m .exact >>>
      k).roundedMantissa = rounded m k := rfl
  unfold roundWithAccuracy
  simp only [shiftToTargetExponent_eq h least, first, again,
    dif_neg (Nat.ne_of_gt some)]

/-- **A mantissa with bits to spare is rounded to the place that goes up with
it.**  If rounding makes it overflow, the exponent takes the carry. -/
theorem roundWithAccuracy_standsAt (s : Sign) {m k : Nat} {e : Int}
    (h : m.log2 = 52 + k) (hm : m ≠ 0) (least : -1074 ≤ e + k)
    (greatest : e + k < 971) :
    StandsAt s ((e + k + 1074) * 2 ^ 52 + rounded m k)
      (roundWithAccuracy .binary64 s m e .exact) := by
  obtain ⟨low, high⟩ := rounded_bounds h hm
  rcases Nat.lt_or_eq_of_le high with fits | carries
  · have log : (rounded m k).log2 = 52 + 0 :=
      (Nat.log2_eq_iff (by omega)).mpr ⟨low, fits⟩
    have again := shiftToTargetExponent_eq log
      (show -1074 ≤ e + k + (0 : Nat) by omega)
    refine ⟨rounded m k, e + k + (0 : Nat), by omega,
      roundWithAccuracy_eq s h least again rfl _, ⟨fits, ?_, ?_, .inl low⟩, low,
      ?_⟩ <;> omega
  · have log : (rounded m k).log2 = 52 + 1 := by
      rw [carries]
      exact Nat.log2_two_pow
    have again := shiftToTargetExponent_eq log
      (show -1074 ≤ e + k + (1 : Nat) by omega)
    have carried : (ExtendedMantissa.ofMantissaAndAccuracy (rounded m k)
        .exact >>> 1).mantissa = 2 ^ 52 := by
      rw [carries]
      rfl
    refine ⟨2 ^ 52, e + k + (1 : Nat), by omega,
      roundWithAccuracy_eq s h least again carried _, ⟨by omega, ?_, ?_,
      .inl (Nat.le_refl _)⟩, Nat.le_refl _, ?_⟩ <;> omega

theorem log2_mul_two_pow {n : Nat} (h : n ≠ 0) (k : Nat) :
    (n * 2 ^ k).log2 = n.log2 + k := by
  obtain ⟨lower, upper⟩ := (Nat.log2_eq_iff h).mp rfl
  have positive := Nat.two_pow_pos k
  refine (Nat.log2_eq_iff (Nat.mul_ne_zero h (by omega))).mpr ⟨?_, ?_⟩
  · rw [Nat.pow_add]
    exact Nat.mul_le_mul_right _ lower
  · rw [Nat.add_right_comm, Nat.pow_add]
    exact Nat.mul_lt_mul_of_pos_right upper positive

/-- A mantissa that fits once its zeros are gone is not rounded. -/
theorem roundWithAccuracy_exact (s : Sign) {q k m : Nat} {e e' : Int}
    (low : 2 ^ 52 ≤ q) (fits : q < 2 ^ 53) (hm : m = q * 2 ^ k)
    (he : e' = e + k) (least : -1074 ≤ e') (some : 0 < q) :
    roundWithAccuracy .binary64 s m e .exact = .finite s q e' some := by
  subst hm he
  have log : q.log2 = 52 := (Nat.log2_eq_iff (by omega)).mpr ⟨low, fits⟩
  have shifted : (q * 2 ^ k).log2 = 52 + k := by
    rw [log2_mul_two_pow (by omega), log]
  have again := shiftToTargetExponent_eq (m := q) (k := 0) log
    (show -1074 ≤ e + k + (0 : Nat) by omega)
  rw [← rounded_mul q k, show e + k + ((0 : Nat) : Int) = e + k from
    Int.add_zero _] at again
  exact roundWithAccuracy_eq s shifted least again (rounded_mul q k) some

/-- An integer that has 53 bits or less has 53 when it is shifted. -/
theorem shifted_bounds {n : Nat} (h : n ≠ 0) (small : n < 2 ^ 53) :
    2 ^ 52 ≤ n * 2 ^ (52 - n.log2) ∧ n * 2 ^ (52 - n.log2) < 2 ^ 53 := by
  have short : n.log2 < 53 := (Nat.log2_lt h).mpr small
  have log : (n * 2 ^ (52 - n.log2)).log2 = 52 := by
    rw [log2_mul_two_pow h]
    omega
  have power := Nat.two_pow_pos (52 - n.log2)
  exact (Nat.log2_eq_iff (Nat.mul_ne_zero h (by omega))).mp log

/-- An integer of at most 53 bits is shifted to the left until it has 53. -/
theorem ofNat_unpacked {n : Nat} (h : n ≠ 0) (small : n < 2 ^ 53)
    (some : 0 < n * 2 ^ (52 - n.log2)) :
    UnpackedFloat.ofNat .binary64 n =
      .finite .positive (n * 2 ^ (52 - n.log2)) (n.log2 - 52) some := by
  have log : n.log2 < 53 := (Nat.log2_lt h).mpr small
  obtain ⟨low, fits⟩ := shifted_bounds h small
  have target : Format.binary64.targetExponent (totalExponent n 0) =
      n.log2 - 52 := by
    show max ((n.log2 : Int) + 1 + 0 - ((1 + 52 : Nat) : Int)) (-1074) = _
    omega
  have amount : ((0 : Int) - (n.log2 - 52)).toNat = 52 - n.log2 := by omega
  unfold UnpackedFloat.ofNat UnpackedFloat.ofInt UnpackedFloat.normalize
  rw [Int.compare_eq_gt.mpr (by omega)]
  unfold UnpackedFloat.round UnpackedFloat.decreaseExponent
  simp only [Int.toNat_natCast, target, amount, Nat.shiftLeft_eq]
  exact roundWithAccuracy_exact .positive (k := 0) low fits (by omega)
    (by omega) (by omega) some

/-! ## Integers as floats -/

/-- The place of a positive integer once it is a float. -/
def natPlace (n : Nat) : Nat :=
  (n.log2 + 1022) * 2 ^ 52 + rounded (n * 2 ^ 53) (n.log2 + 1)

/-- The float that integers are multiplied with. -/
theorem unpack_one : (Float.ofBits 4607182418800017408).toModel.unpack =
    .finite .positive (2 ^ 52) (-52) (by omega) := by
  have bits : UnpackedFloat.unpack .binary64
      (4607182418800017408 : UInt64).toBitVec =
        .finite .positive (2 ^ 52) (-52) (by omega) := rfl
  show UnpackedFloat.unpack .binary64
    (UnpackedFloat.pack .binary64 (UnpackedFloat.unpack .binary64 _)) = _
  rw [bits]
  rfl

theorem ofNat_small {n : Nat} (small : n < 2 ^ 53) :
    (Float.ofNat n).toModel.unpack =
      (Float.Model.pack (mul .binary64
        (Float.Model.pack (UnpackedFloat.ofNat .binary64 n)).unpack
        (.finite .positive (2 ^ 52) (-52) (by omega)))).unpack := by
  have word : (UInt64.ofNat n).toNat = n := UInt64.toNat_ofNat_of_lt'
    (Nat.lt_of_lt_of_le small (by decide))
  have same : Float.Model.ofUInt64 (.ofNat n) =
      Float.Model.pack (UnpackedFloat.ofNat .binary64 n) := by
    show Float.Model.pack (UnpackedFloat.ofNat .binary64 (UInt64.ofNat n).toNat)
      = _
    rw [word]
  rw [← same, ← unpack_one]
  show (Float.ofScientific n false 0).toModel.unpack = _
  unfold Float.ofScientific
  rw [dif_pos ⟨small, by decide⟩]
  rfl

theorem ofNat_large {n : Nat} (large : 2 ^ 53 ≤ n) :
    (Float.ofNat n).toModel.unpack = (Float.Model.pack
      (roundWithAccuracy .binary64 .positive (n * 2 ^ 53) (-53) .exact)).unpack
    := by
  have n_pos : n ≠ 0 := by omega
  have small : ¬ (0 : Int) < -(2 ^ 11 + n.log2) := by omega
  have shifted : n <<< 53 * 10 ^ (0 : Int).toNat = n * 2 ^ 53 := by
    rw [Nat.shiftLeft_eq]
    exact Nat.mul_one _
  show (Float.ofScientific n false 0).toModel.unpack = _
  unfold Float.ofScientific
  rw [dif_neg (by omega)]
  show (Float.Model.pack (UnpackedFloat.ofScientific _ n 0)).unpack = _
  unfold UnpackedFloat.ofScientific
  rw [dif_neg n_pos, if_neg (by decide), if_neg small, if_pos (by decide),
    ← shifted]
  rfl

/-- **A positive integer of at most 64 bits is a float at its place.** -/
theorem ofNat_standsAt {n : Nat} (h : n ≠ 0) (bound : n < 2 ^ 64) :
    StandsAt .positive (natPlace n) (Float.ofNat n).toModel.unpack := by
  rcases Nat.lt_or_ge n (2 ^ 53) with small | large
  · have log : n.log2 < 53 := (Nat.log2_lt h).mpr small
    obtain ⟨low, fits⟩ := shifted_bounds h small
    have some : 0 < n * 2 ^ (52 - n.log2) := by omega
    have fit : Fitting (n * 2 ^ (52 - n.log2)) (n.log2 - 52) := by
      constructor <;> omega
    have product : mul .binary64
        (.finite .positive (n * 2 ^ (52 - n.log2)) (n.log2 - 52) some)
        (.finite .positive (2 ^ 52) (-52) (by omega)) =
          .finite .positive (n * 2 ^ (52 - n.log2)) (n.log2 - 52) some :=
      roundWithAccuracy_exact .positive (k := 52) low fits rfl (by omega)
        (by omega) some
    have wide : n * 2 ^ 53 = n * 2 ^ (52 - n.log2) * 2 ^ (n.log2 + 1) := by
      rw [Nat.mul_assoc, ← Nat.pow_add]
      congr 2
      omega
    have kept : Float.Model.unpack (Float.Model.pack
        (.finite .positive (n * 2 ^ (52 - n.log2)) (n.log2 - 52) some)) = _ :=
      unpack_pack fit low some
    rw [ofNat_small small, ofNat_unpacked h small some, kept, product, kept]
    refine ⟨_, _, _, rfl, fit, low, ?_⟩
    unfold natPlace
    rw [wide, rounded_mul]
    omega
  · have log : n.log2 < 64 := (Nat.log2_lt h).mpr bound
    have wide : (n * 2 ^ 53).log2 = 52 + (n.log2 + 1) := by
      rw [log2_mul_two_pow h]
      omega
    obtain ⟨m, e, hm, unpacked, fit, full, place⟩ :=
      roundWithAccuracy_standsAt .positive (e := -53) wide (by omega) (by omega)
        (by omega)
    rw [ofNat_large large, unpacked]
    refine ⟨m, e, hm, unpack_pack fit full hm, fit, full, ?_⟩
    unfold natPlace
    omega

/-- **The place goes up with the integer**, within one length as rounding does
and from one length to the next since none is rounded beyond the first place
of the next. -/
theorem natPlace_mono {m n : Nat} (hm : m ≠ 0) (h : m ≤ n) :
    natPlace m ≤ natPlace n := by
  have hn : n ≠ 0 := by omega
  have lengths : m.log2 ≤ n.log2 :=
    (Nat.le_log2 hn).mpr (Nat.le_trans (Nat.log2_self_le hm) h)
  unfold natPlace
  rcases Nat.lt_or_eq_of_le lengths with shorter | same
  · have bounds {n : Nat} (hn : n ≠ 0) := rounded_bounds (m := n * 2 ^ 53)
      (k := n.log2 + 1) (by rw [log2_mul_two_pow hn]; omega) (by omega)
    have := (bounds hm).2
    have := (bounds hn).1
    omega
  · rw [same]
    exact Nat.add_le_add_left (rounded_mono (Nat.mul_le_mul_right _ h) _) _

/-- The place of an integer once it is a float. -/
def intPlace (z : Int) : Int :=
  z.sign * natPlace z.natAbs

/-- **The place goes up with the integer.** -/
theorem intPlace_mono {a b : Int} (h : a ≤ b) : intPlace a ≤ intPlace b := by
  have above {z : Int} (hz : 0 < z) : intPlace z = natPlace z.natAbs := by
    rw [intPlace, Int.sign_eq_one_of_pos hz, Int.one_mul]
  have below {z : Int} (hz : z < 0) : intPlace z = -natPlace z.natAbs := by
    rw [intPlace, Int.sign_eq_neg_one_of_neg hz, Int.neg_one_mul]
  have zero : intPlace 0 = 0 := rfl
  rcases Int.lt_trichotomy a 0 with ha | rfl | ha
  · rcases Int.lt_trichotomy b 0 with hb | rfl | hb
    · have : natPlace b.natAbs ≤ natPlace a.natAbs :=
        natPlace_mono (by omega) (by omega)
      rw [below ha, below hb]
      omega
    · rw [below ha, zero]
      omega
    · rw [below ha, above hb]
      omega
  · rcases Int.lt_or_eq_of_le h with hb | rfl
    · rw [zero, above hb]
      omega
    · exact Int.le_refl _
  · have : natPlace a.natAbs ≤ natPlace b.natAbs :=
      natPlace_mono (by omega) (by omega)
    rw [above ha, above (by omega)]
    omega

/-- **An integer of 64 bits is never a missing float, and has its place once
it is one.** -/
theorem unpack_ofInt {z : Int} (h : z.natAbs < 2 ^ 64) :
    (Float.ofInt z).toModel.unpack ≠ .notANumber ∧
      place (Float.ofInt z).toModel.unpack = intPlace z := by
  match z with
  | .ofNat 0 =>
    have zero : (Float.ofInt 0).toModel.unpack = .zero .positive := by
      show (Float.ofNat 0).toModel.unpack = _
      rw [ofNat_small (by decide)]
      rfl
    rw [show Int.ofNat 0 = 0 from rfl, zero]
    exact ⟨nofun, rfl⟩
  | .ofNat (n + 1) =>
    obtain ⟨m, e, hm, same, -, -, stands⟩ := ofNat_standsAt n.succ_ne_zero h
    rw [show Float.ofInt (.ofNat (n + 1)) = Float.ofNat (n + 1) from rfl, same]
    exact ⟨nofun, stands.trans (Int.one_mul _).symm⟩
  | .negSucc n =>
    obtain ⟨m, e, hm, same, fit, full, stands⟩ :=
      ofNat_standsAt n.succ_ne_zero h
    have negated : (Float.ofInt (.negSucc n)).toModel.unpack =
        .finite .negative m e hm := by
      show (Float.Model.pack (Float.ofNat (n + 1)).toModel.unpack.neg).unpack
        = _
      rw [same]
      exact unpack_pack fit full hm
    rw [negated]
    exact ⟨nofun, (congrArg _ stands).trans (Int.neg_one_mul _).symm⟩

/-! ## Floats in order -/

theorem isNaN_iff_unpack (x : Float) :
    x.isNaN ↔ x.toModel.unpack = .notANumber :=
  UnpackedFloat.isNaN_iff

theorem lt_iff (x y : Float) :
    x < y ↔ x.toModel.unpack.compare y.toModel.unpack = some .lt := by
  show decide ((UnpackedFloat.compare _ _ == some .lt) = true) = true ↔ _
  rw [decide_eq_true_iff, beq_iff_eq]

theorem beq_iff (x y : Float) :
    x == y ↔ x.toModel.unpack.compare y.toModel.unpack = some .eq := by
  show (UnpackedFloat.compare _ _ == some .eq) = true ↔ _
  rw [beq_iff_eq]

/-- A missing float compares with nothing. -/
theorem compare_missing {a b : UnpackedFloat}
    (h : a = .notANumber ∨ b = .notANumber) : a.compare b = none := by
  rcases h with rfl | rfl
  · rfl
  · cases a <;> rfl

/-- **Floats are ordered by their places, unless one is missing.** -/
theorem floatOrder?_eq (x y : Float) :
    floatOrder? x y =
      if x.isNaN || y.isNaN then none
      else
        some (compare (place x.toModel.unpack) (place y.toModel.unpack)) := by
  have canonical (x : Float) : Canonical x.toModel.unpack := canonical_unpack _
  have missing : (x.isNaN || y.isNaN) = true ↔
      x.toModel.unpack = .notANumber ∨ y.toModel.unpack = .notANumber := by
    rw [Bool.or_eq_true, isNaN_iff_unpack, isNaN_iff_unpack]
  unfold floatOrder?
  simp only [lt_iff, beq_iff]
  by_cases h : x.toModel.unpack = .notANumber ∨ y.toModel.unpack = .notANumber
  · rw [if_pos (missing.mpr h), compare_missing h, compare_missing h.symm]
    rfl
  · obtain ⟨hx, hy⟩ := not_or.mp h
    rw [if_neg (mt missing.mp h),
      compare_eq_place (canonical x) (canonical y) hx hy,
      compare_eq_place (canonical y) (canonical x) hy hx,
      ← Int.compare_swap (place x.toModel.unpack)]
    cases compare (place x.toModel.unpack) (place y.toModel.unpack) <;> rfl

/-- The float of an integer is not missing. -/
theorem isNaN_ofInt (n : Int64) : (Float.ofInt n.toInt).isNaN = false := by
  have := n.toInt_lt
  have := n.le_toInt
  rw [Bool.eq_false_iff, ne_eq, isNaN_iff_unpack]
  exact (unpack_ofInt (by omega)).1

/-- The float of an integer is at the place of the integer. -/
theorem place_ofInt (n : Int64) :
    place (Float.ofInt n.toInt).toModel.unpack = intPlace n.toInt := by
  have := n.toInt_lt
  have := n.le_toInt
  exact (unpack_ofInt (by omega)).2

end Forth.Floats
