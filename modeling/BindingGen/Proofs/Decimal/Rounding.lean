import BindingGen.Decimal.Binary64
import Mathlib.Algebra.Order.Field.Power
import Mathlib.Data.Rat.Cast.Order
import Mathlib.Tactic.FieldSimp
import Mathlib.Tactic.Linarith
import Mathlib.Tactic.Positivity
import Mathlib.Tactic.Ring

/-!
# Rounding to a double

What rounding a ratio comes to, in terms of the rational number alone: the unit is the one in which
the number has 53 bits (`RoundsAt`), and the count of units is the nearest one. Hence the result
does not depend on how the number is given as a ratio, nor on the scales that reading a decimal
settles in advance.

Results:
1. `ofRatio_congr`, `ofDecimal_congr`: equal numbers are rounded to equal values.
2. `ofRatio_eq_finite`, `ofDecimal_eq_finite`: a number of the format is rounded to itself.
3. `canonical_ofRatio`, `canonical_ofDecimal`: whatever is rounded becomes a value of the format.
-/

namespace BindingGen.Decimal

/-! ## Powers -/

/-- A power with an integer exponent is a ratio of powers with natural exponents. -/
theorem zpow_eq_div {b : ℚ} (nonzero : b ≠ 0) (e : ℤ) :
    b ^ e = b ^ e.toNat / b ^ (-e).toNat := by
  rw [← zpow_natCast, ← zpow_natCast, ← zpow_sub₀ nonzero]
  congr 1
  omega

namespace Binary64

/-! ## Whole numbers nearest to a ratio -/

theorem roundDiv_mul (n d : Nat) {k : Nat} (positive : 0 < k) :
    roundDiv (k * n) (k * d) = roundDiv n d := by
  have rest : 2 * (k * n % (k * d)) = k * (2 * (n % d)) := by
    rw [Nat.mul_mod_mul_left]
    ring
  simp only [roundDiv, rest, Nat.mul_div_mul_left n d positive, Nat.mul_lt_mul_left positive]

/-- The nearest number depends on the ratio alone. -/
theorem roundDiv_congr {n d n' d' : Nat} (same : n * d' = n' * d) (positive : 0 < d)
    (positive' : 0 < d') : roundDiv n d = roundDiv n' d' := by
  rw [← roundDiv_mul n d positive', ← roundDiv_mul n' d' positive, mul_comm d' n, same,
    mul_comm n' d, mul_comm d' d]

theorem roundDiv_of_whole (n : Nat) {d : Nat} (positive : 0 < d) : roundDiv (n * d) d = n := by
  simp [roundDiv, positive]

theorem le_roundDiv {n d m : Nat} (positive : 0 < d) (least : m * d ≤ n) : m ≤ roundDiv n d := by
  have quotient : m ≤ n / d := (Nat.le_div_iff_mul_le positive).mpr least
  simp only [roundDiv]
  split
  · exact quotient
  · split
    · omega
    · omega

theorem roundDiv_le {n d m : Nat} (positive : 0 < d) (below : n < m * d) : roundDiv n d ≤ m := by
  have quotient : n / d < m := (Nat.div_lt_iff_lt_mul positive).mpr below
  simp only [roundDiv]
  split
  · omega
  · split
    · omega
    · omega

/-- Less than half a unit is rounded to nothing. -/
theorem roundDiv_eq_zero {n d : Nat} (small : 2 * n < d) : roundDiv n d = 0 := by
  have whole : n / d = 0 := Nat.div_eq_of_lt (by omega)
  have rest : n % d = n := Nat.mod_eq_of_lt (by omega)
  simp only [roundDiv, whole, rest, if_pos small]

/-! ## The unit of rounding -/

/-- `RoundsAt x unit`: a positive number is rounded to a multiple of `2 ^ unit`, of which it holds a
number of 53 bits, or of fewer at the least exponent. -/
structure RoundsAt (x : ℚ) (unit : ℤ) : Prop where
  least : leastExponent ≤ unit
  below : x < significandBound * 2 ^ unit
  full : unit = leastExponent ∨ significandBound * 2 ^ unit ≤ 2 * x

theorem RoundsAt.le {x : ℚ} {unit other : ℤ} (rounds : RoundsAt x unit)
    (rounds' : RoundsAt x other) :
    other ≤ unit := by
  by_contra greater
  -- In a greater unit the number would have fewer than 53 bits, and not at the least exponent.
  have least := rounds.least
  have full := rounds'.full.resolve_left (by omega)
  have powers : (2 : ℚ) ^ (unit + 1) ≤ 2 ^ other := zpow_le_zpow_right₀ (by norm_num) (by omega)
  rw [zpow_add_one₀ (by norm_num)] at powers
  have bound : (0 : ℚ) ≤ significandBound := Nat.cast_nonneg _
  have := rounds.below
  have := mul_le_mul_of_nonneg_left powers bound
  linarith

/-- A number is rounded in one unit only. -/
theorem RoundsAt.unique {x : ℚ} {unit other : ℤ} (rounds : RoundsAt x unit)
    (rounds' : RoundsAt x other) : unit = other :=
  le_antisymm (rounds'.le rounds) (rounds.le rounds')

theorem inUnits_eq (num den : Nat) (unit : ℤ) :
    ((inUnits num den unit).1 : ℚ) / (inUnits num den unit).2 = num / den / 2 ^ unit := by
  rw [zpow_eq_div (by norm_num) unit]
  simp only [inUnits, Nat.pow_eq]
  push_cast
  rw [div_div_div_eq]

theorem inUnits_pos (num : Nat) {den : Nat} (positive : 0 < den) (unit : ℤ) :
    0 < (inUnits num den unit).2 :=
  Nat.mul_pos positive (Nat.pow_pos (by decide))

/-- A whole part below a bound is that of a number below so many units. -/
theorem inUnits_div_lt_iff (num : Nat) {den : Nat} (positive : 0 < den) (unit : ℤ) (bound : Nat) :
    (inUnits num den unit).1 / (inUnits num den unit).2 < bound ↔
      (num : ℚ) / den < bound * 2 ^ unit := by
  have divisor : (0 : ℚ) < (inUnits num den unit).2 :=
    Nat.cast_pos.mpr (inUnits_pos num positive unit)
  have power : (0 : ℚ) < 2 ^ unit := zpow_pos (by norm_num) unit
  rw [Nat.div_lt_iff_lt_mul (inUnits_pos num positive unit), ← div_lt_iff₀ power, ← inUnits_eq,
    div_lt_iff₀ divisor]
  norm_cast

/-- The lengths of numerator and denominator tell a ratio up to a factor of two. -/
theorem log2_bounds {num den : Nat} (positive : 0 < num) (positive' : 0 < den) :
    (2 : ℚ) ^ ((num.log2 : ℤ) - den.log2) ≤ 2 * (num / den) ∧
      (num : ℚ) / den < 2 ^ ((num.log2 : ℤ) - den.log2 + 1) := by
  have divisor : (0 : ℚ) < den := Nat.cast_pos.mpr positive'
  have numLow : (2 : ℚ) ^ num.log2 ≤ num := by exact_mod_cast Nat.log2_self_le positive.ne'
  have numHigh : (num : ℚ) < 2 ^ (num.log2 + 1) := by exact_mod_cast Nat.lt_log2_self
  have denLow : (2 : ℚ) ^ den.log2 ≤ den := by exact_mod_cast Nat.log2_self_le positive'.ne'
  have denHigh : (den : ℚ) < 2 ^ (den.log2 + 1) := by exact_mod_cast Nat.lt_log2_self
  have power : (0 : ℚ) < 2 ^ den.log2 := by positivity
  rw [zpow_add_one₀ (by norm_num), zpow_sub₀ (by norm_num), zpow_natCast, zpow_natCast]
  constructor
  · rw [div_le_iff₀ power, mul_div_assoc', div_mul_eq_mul_div, le_div_iff₀ divisor]
    rw [pow_succ] at denHigh
    nlinarith
  · rw [div_lt_iff₀ divisor, div_mul_eq_mul_div, div_mul_eq_mul_div, lt_div_iff₀ power]
    rw [pow_succ] at numHigh
    nlinarith

theorem roundsAt_unitExponent {num den : Nat} (positive : 0 < num) (positive' : 0 < den) :
    RoundsAt (num / den) (unitExponent num den) := by
  obtain ⟨low, high⟩ := log2_bounds positive positive'
  have bound : (significandBound : ℚ) = 2 ^ (53 : ℤ) := by
    norm_num [significandBound]
  have guessed : ∀ unit : ℤ, (significandBound : ℚ) * 2 ^ unit = 2 ^ (unit + 53) := by
    intro unit
    rw [bound, ← zpow_add₀ (by norm_num), add_comm]
  simp only [unitExponent]
  -- The lengths leave a factor of two open, so that the guess may be too small by one.
  split
  · next fits =>
    refine ⟨by omega, (inUnits_div_lt_iff num positive' _ _).mp fits, ?_⟩
    rcases le_or_gt ((num.log2 : ℤ) - den.log2 - 53) leastExponent with small | large
    · exact .inl (max_eq_left small)
    · right
      rw [max_eq_right large.le, guessed, sub_add_cancel]
      exact low
  · next exceeds =>
    have exceeds := not_lt.mp (mt (inUnits_div_lt_iff num positive' _ _).mpr exceeds)
    refine ⟨by omega, ?_, .inr ?_⟩
    · rw [guessed]
      refine high.trans_le (zpow_le_zpow_right₀ (by norm_num) (by omega))
    · rw [zpow_add_one₀ (by norm_num)]
      linarith

/-! ## Rounding -/

/-- A rounded number of units as a value: one that reached the bound is carried over, and one beyond
the greatest exponent is infinite. -/
def packed (negative : Bool) (rounded : Nat) (unit : Int) : Binary64 :=
  if rounded = significandBound then
    if greatestExponent < unit + 1 then .infinite negative
    else .finite negative (significandBound / 2) (unit + 1)
  else if greatestExponent < unit then .infinite negative
  else .finite negative rounded unit

theorem ofRatio_eq_packed (negative : Bool) {num den : Nat} {unit : ℤ} (positive : 0 < num)
    (positive' : 0 < den) (rounds : RoundsAt (num / den) unit) :
    ofRatio negative num den =
      packed negative (roundDiv (inUnits num den unit).1 (inUnits num den unit).2) unit := by
  rw [ofRatio, if_neg positive.ne', ← (roundsAt_unitExponent positive positive').unique rounds]
  unfold packed
  dsimp only
  split
  · rfl
  · rfl

/-- Rounding depends on the ratio alone. -/
theorem ofRatio_congr (negative : Bool) {num den num' den' : Nat} (positive : 0 < den)
    (positive' : 0 < den') (same : (num : ℚ) / den = num' / den') :
    ofRatio negative num den = ofRatio negative num' den' := by
  have crossed : num * den' = num' * den := by
    rw [div_eq_div_iff (Nat.cast_ne_zero.mpr positive.ne')
      (Nat.cast_ne_zero.mpr positive'.ne')] at same
    exact_mod_cast same
  rcases Nat.eq_zero_or_pos num with rfl | nonzero
  · have none : num' = 0 := by
      rw [Nat.zero_mul, eq_comm, Nat.mul_eq_zero] at crossed
      exact crossed.resolve_right positive.ne'
    rw [none]
    rfl
  · have nonzero' : 0 < num' := by
      refine Nat.pos_of_ne_zero fun none => ?_
      rw [none, Nat.zero_mul, Nat.mul_eq_zero] at crossed
      omega
    -- Both are rounded in one unit, since the number determines it.
    have rounds := roundsAt_unitExponent nonzero positive
    rw [ofRatio_eq_packed negative nonzero positive rounds,
      ofRatio_eq_packed negative nonzero' positive' (same ▸ rounds)]
    congr 1
    refine roundDiv_congr ?_ (inUnits_pos num positive _) (inUnits_pos num' positive' _)
    simp only [inUnits]
    generalize Nat.pow 2 (-unitExponent num den).toNat = a
    generalize Nat.pow 2 (unitExponent num den).toNat = b
    calc
      num * a * (den' * b) = num * den' * (a * b) := by ring
      _ = num' * den * (a * b) := by rw [crossed]
      _ = num' * a * (den * b) := by ring

/-! ## Values of the format -/

theorem ratio_eq (significand : Nat) (exponent : Int) :
    ((ratio significand exponent).1 : ℚ) / (ratio significand exponent).2 =
      significand * 2 ^ exponent := by
  rw [zpow_eq_div (by norm_num) exponent]
  simp only [ratio, Nat.pow_eq]
  push_cast
  rw [mul_div_assoc]

theorem ratio_pos (significand : Nat) (exponent : Int) : 0 < (ratio significand exponent).2 :=
  Nat.pow_pos (by decide)

/-- The number of a value of the format is rounded to this value. -/
theorem ofRatio_eq_finite (negative : Bool) {num den significand : Nat} {exponent : Int}
    (positive : 0 < den) (nonzero : significand ≠ 0) (format : InFormat significand exponent)
    (same : (num : ℚ) / den = significand * 2 ^ exponent) :
    ofRatio negative num den = .finite negative significand exponent := by
  obtain ⟨below, least, greatest, full⟩ := format
  have power : (0 : ℚ) < 2 ^ exponent := zpow_pos (by norm_num) exponent
  have rounds :
      RoundsAt ((ratio significand exponent).1 / (ratio significand exponent).2) exponent := by
    rw [ratio_eq]
    refine ⟨least, mul_lt_mul_of_pos_right (by exact_mod_cast below) power, ?_⟩
    rcases full with whole | atLeast
    · right
      rw [← mul_assoc]
      exact mul_le_mul_of_nonneg_right (by exact_mod_cast whole) power.le
    · exact .inl atLeast
  have units :
      (inUnits (ratio significand exponent).1 (ratio significand exponent).2 exponent).1 =
        significand *
          (inUnits (ratio significand exponent).1 (ratio significand exponent).2 exponent).2 := by
    simp only [inUnits, ratio]
    ring
  have positiveRatio : 0 < (ratio significand exponent).1 :=
    Nat.mul_pos (Nat.pos_of_ne_zero nonzero) (Nat.pow_pos (by decide))
  rw [ofRatio_congr negative positive (ratio_pos significand exponent)
      (same.trans (ratio_eq _ _).symm),
    ofRatio_eq_packed negative positiveRatio (ratio_pos _ _) rounds, units,
    roundDiv_of_whole _ (inUnits_pos _ (ratio_pos _ _) _)]
  rw [packed, if_neg below.ne, if_neg (not_lt.mpr greatest)]

/-- A finite value has the significand and the exponent of a value of the format. -/
def Canonical : Binary64 → Prop
  | .finite _ significand exponent => InFormat significand exponent
  | _ => True

theorem canonical_zero (negative : Bool) : (zero negative).Canonical := by
  refine ⟨by decide, le_rfl, by decide, .inr rfl⟩

/-- Rounding leads to values of the format. -/
theorem canonical_ofRatio (negative : Bool) (num : Nat) {den : Nat} (positive : 0 < den) :
    (ofRatio negative num den).Canonical := by
  rcases Nat.eq_zero_or_pos num with rfl | nonzero
  · exact canonical_zero negative
  have rounds := roundsAt_unitExponent nonzero positive
  rw [ofRatio_eq_packed negative nonzero positive rounds]
  generalize unitExponent num den = unit at rounds ⊢
  have divisor := inUnits_pos num positive unit
  have most : roundDiv (inUnits num den unit).1 (inUnits num den unit).2 ≤ significandBound := by
    refine roundDiv_le divisor ((Nat.div_lt_iff_lt_mul divisor).mp ?_)
    exact (inUnits_div_lt_iff num positive unit _).mpr rounds.below
  have least : unit = leastExponent ∨
      significandBound / 2 ≤ roundDiv (inUnits num den unit).1 (inUnits num den unit).2 := by
    refine rounds.full.imp_right fun full => le_roundDiv divisor ?_
    refine (Nat.le_div_iff_mul_le divisor).mp (not_lt.mp ?_)
    rw [inUnits_div_lt_iff num positive unit, not_lt]
    have half : (significandBound : ℚ) = 2 * (significandBound / 2 : Nat) := by
      norm_num [significandBound]
    rw [half] at full
    linarith
  have even : significandBound = 2 * (significandBound / 2) := by decide
  have bound : significandBound / 2 < significandBound := by decide
  have above := rounds.least
  generalize roundDiv (inUnits num den unit).1 (inUnits num den unit).2 = rounded at most least
  unfold packed
  split
  · -- The carry leaves half of the bound, the least significand of full precision.
    split
    · trivial
    · exact ⟨bound, by omega, by omega, .inl even.le⟩
  · split
    · trivial
    · exact ⟨by omega, above, by omega, by omega⟩

/-- What lies beyond all values of the format is rounded to infinity. -/
theorem ofRatio_eq_infinite (negative : Bool) {num den : Nat} (positive : 0 < den)
    (large : (significandBound : ℚ) * 2 ^ greatestExponent ≤ num / den) :
    ofRatio negative num den = .infinite negative := by
  have bound : (0 : ℚ) < significandBound := by norm_num [significandBound]
  have nonzero : 0 < num := by
    refine Nat.pos_of_ne_zero ?_
    rintro rfl
    rw [Nat.cast_zero, zero_div] at large
    have : (0 : ℚ) < significandBound * 2 ^ greatestExponent := by positivity
    linarith
  have rounds := roundsAt_unitExponent nonzero positive
  rw [ofRatio_eq_packed negative nonzero positive rounds]
  generalize unitExponent num den = unit at rounds ⊢
  have beyond : greatestExponent < unit := by
    have powers := lt_of_mul_lt_mul_left (large.trans_lt rounds.below) bound.le
    exact (zpow_lt_zpow_iff_right₀ (by norm_num)).mp powers
  unfold packed
  split
  · exact if_pos (by omega)
  · rfl

/-- What is less than half of the least value is rounded to zero. -/
theorem ofRatio_eq_zero (negative : Bool) {num den : Nat} (positive : 0 < den)
    (small : 2 * ((num : ℚ) / den) < 2 ^ leastExponent) :
    ofRatio negative num den = zero negative := by
  rcases Nat.eq_zero_or_pos num with rfl | nonzero
  · rfl
  have rounds := roundsAt_unitExponent nonzero positive
  have least : unitExponent num den = leastExponent := by
    refine rounds.full.resolve_right fun full => ?_
    have powers : (2 : ℚ) ^ leastExponent ≤ 2 ^ unitExponent num den :=
      zpow_le_zpow_right₀ (by norm_num) rounds.least
    have bound : (1 : ℚ) ≤ significandBound := by norm_num [significandBound]
    have := mul_le_mul bound powers (by positivity) (by positivity)
    linarith
  rw [least] at rounds
  have half : 2 * (inUnits num den leastExponent).1 < (inUnits num den leastExponent).2 := by
    have divisor : (0 : ℚ) < (inUnits num den leastExponent).2 :=
      Nat.cast_pos.mpr (inUnits_pos num positive leastExponent)
    have power : (0 : ℚ) < 2 ^ leastExponent := zpow_pos (by norm_num) _
    rw [← div_lt_one power, mul_div_assoc, ← inUnits_eq, ← mul_div_assoc,
      div_lt_one divisor] at small
    exact_mod_cast small
  rw [ofRatio_eq_packed negative nonzero positive rounds, roundDiv_eq_zero half]
  rfl

/-! ## Decimals -/

theorem decimal_eq (digits : Nat) (scale : Int) :
    ((digits * Nat.pow 10 scale.toNat : Nat) : ℚ) / (Nat.pow 10 (-scale).toNat : Nat) =
      digits * 10 ^ scale := by
  rw [zpow_eq_div (by norm_num) scale, Nat.pow_eq, Nat.pow_eq]
  push_cast
  rw [mul_div_assoc]

/-- A negative power of ten is at most that of eight. -/
theorem ten_zpow_le {scale : ℤ} (negative : scale ≤ 0) : (10 : ℚ) ^ scale ≤ 2 ^ (3 * scale) := by
  obtain ⟨k, rfl⟩ : ∃ k : ℕ, scale = -k := ⟨scale.natAbs, by omega⟩
  have eight : (2 : ℚ) ^ (3 * (-k : ℤ)) = (8 ^ k)⁻¹ := by
    rw [zpow_mul, zpow_neg, zpow_natCast]
    norm_num
  rw [eight, zpow_neg, zpow_natCast]
  exact inv_anti₀ (by positivity) (pow_le_pow_left₀ (by norm_num) (by norm_num) k)

/-- The scales that are settled without computing the power are settled as the power would. -/
theorem ofDecimal_eq_ofRatio (negative : Bool) (digits : Nat) (scale : Int) :
    ofDecimal negative digits scale =
      ofRatio negative (digits * Nat.pow 10 scale.toNat) (Nat.pow 10 (-scale).toNat) := by
  have positive : 0 < Nat.pow 10 (-scale).toNat := Nat.pow_pos (by decide)
  unfold ofDecimal
  split
  · next none =>
    rw [none, Nat.zero_mul]
    rfl
  · next nonzero =>
    have some : (1 : ℚ) ≤ digits := by exact_mod_cast Nat.pos_of_ne_zero nonzero
    split
    · next large =>
      refine (ofRatio_eq_infinite negative positive ?_).symm
      rw [decimal_eq]
      have power : (10 : ℚ) ^ (310 : ℤ) ≤ 10 ^ scale := zpow_le_zpow_right₀ (by norm_num) (by omega)
      have beyond : (significandBound : ℚ) * 2 ^ greatestExponent ≤ 10 ^ (310 : ℤ) := by
        have cast (a b : ℕ) (whole : significandBound * 2 ^ a ≤ 10 ^ b) :
            (significandBound : ℚ) * 2 ^ (a : ℤ) ≤ 10 ^ (b : ℤ) := by
          rw [zpow_natCast, zpow_natCast]
          exact_mod_cast whole
        exact cast 971 310 (by decide +kernel)
      calc
        (significandBound : ℚ) * 2 ^ greatestExponent ≤ 1 * 10 ^ scale := by linarith
        _ ≤ digits * 10 ^ scale := mul_le_mul_of_nonneg_right some (by positivity)
    · split
      · next small =>
        refine (ofRatio_eq_zero negative positive ?_).symm
        rw [decimal_eq]
        have length : (digits : ℚ) < 2 ^ ((digits.log2 : ℤ) + 1) := by
          exact_mod_cast Nat.lt_log2_self
        have below : scale ≤ 0 := by
          simp only [leastExponent] at small
          omega
        have power := ten_zpow_le below
        have unit : (0 : ℚ) < 10 ^ scale := zpow_pos (by norm_num) scale
        calc
          2 * ((digits : ℚ) * 10 ^ scale) < 2 * (2 ^ ((digits.log2 : ℤ) + 1) * 10 ^ scale) := by
            have := mul_lt_mul_of_pos_right length unit
            linarith
          _ ≤ 2 * (2 ^ ((digits.log2 : ℤ) + 1) * 2 ^ (3 * scale)) := by
            have bound : (0 : ℚ) ≤ 2 ^ ((digits.log2 : ℤ) + 1) := zpow_nonneg (by norm_num) _
            linarith only [mul_le_mul_of_nonneg_left power bound]
          _ = 2 ^ ((digits.log2 : ℤ) + 1 + 3 * scale + 1) := by
            rw [← zpow_add₀ (by norm_num), mul_comm, ← zpow_add_one₀ (by norm_num)]
          _ ≤ 2 ^ leastExponent := zpow_le_zpow_right₀ (by norm_num) (by omega)
      · rfl

/-- Decimals that denote one number are rounded to one value. -/
theorem ofDecimal_congr (negative : Bool) {digits digits' : Nat} {scale scale' : Int}
    (same : (digits : ℚ) * 10 ^ scale = digits' * 10 ^ scale') :
    ofDecimal negative digits scale = ofDecimal negative digits' scale' := by
  rw [ofDecimal_eq_ofRatio, ofDecimal_eq_ofRatio]
  refine ofRatio_congr negative (Nat.pow_pos (by decide)) (Nat.pow_pos (by decide)) ?_
  rw [decimal_eq, decimal_eq, same]

theorem ofDecimal_eq_finite (negative : Bool) {digits significand : Nat} {scale exponent : Int}
    (nonzero : significand ≠ 0) (format : InFormat significand exponent)
    (same : (digits : ℚ) * 10 ^ scale = significand * 2 ^ exponent) :
    ofDecimal negative digits scale = .finite negative significand exponent := by
  rw [ofDecimal_eq_ofRatio]
  exact ofRatio_eq_finite negative (Nat.pow_pos (by decide)) nonzero format
    ((decimal_eq digits scale).trans same)

theorem canonical_ofDecimal (negative : Bool) (digits : Nat) (scale : Int) :
    (ofDecimal negative digits scale).Canonical := by
  rw [ofDecimal_eq_ofRatio]
  exact canonical_ofRatio negative _ (Nat.pow_pos (by decide))

theorem packed_signed (negative : Bool) {rounded significand : Nat} {unit exponent : Int}
    (read : packed false rounded unit = .finite false significand exponent) :
    packed negative rounded unit = .finite negative significand exponent := by
  unfold packed at read ⊢
  split at read
  · next carried =>
    rw [if_pos carried]
    split at read
    · cases read
    · next within =>
      cases read
      exact if_neg within
  · next plain =>
    rw [if_neg plain]
    split at read
    · cases read
    · next within =>
      cases read
      exact if_neg within

/-- A sign before a decimal is the sign of its value. -/
theorem ofDecimal_signed (negative : Bool) {digits significand : Nat} {scale exponent : Int}
    (read : ofDecimal false digits scale = .finite false significand exponent) :
    ofDecimal negative digits scale = .finite negative significand exponent := by
  have positive : 0 < Nat.pow 10 (-scale).toNat := Nat.pow_pos (by decide)
  rw [ofDecimal_eq_ofRatio] at read ⊢
  rcases Nat.eq_zero_or_pos (digits * Nat.pow 10 scale.toNat) with none | nonzero
  · rw [none] at read ⊢
    cases read
    rfl
  · have rounds := roundsAt_unitExponent nonzero positive
    rw [ofRatio_eq_packed _ nonzero positive rounds] at read ⊢
    exact packed_signed negative read

end Binary64

end BindingGen.Decimal
