import BindingGen.Decimal.Shortest
import BindingGen.Proofs.Decimal.Rounding

/-!
# The shortest decimal reads back

The search for the shortest decimal asks the reader whether a candidate reads back, and where it
finds none it falls back on the decimal that equals the value exactly. Either way the result reads
back, and dropping zeros at the end of its digits changes nothing.

Main result: `ofDecimal_shortest`, for values of the format with either sign.
-/

namespace BindingGen.Decimal

open Binary64 (InFormat ofDecimal)

/-- The number that a decimal denotes. -/
def Scientific.value (x : Scientific) : ℚ := x.digits * 10 ^ x.scale

/-- Zeros at the end of the digits count in the power of ten. -/
theorem Scientific.value_trim (fuel : Nat) (x : Scientific) : (x.trim fuel).value = x.value := by
  induction fuel generalizing x with
  | zero => rfl
  | succ fuel ih =>
    rw [trim]
    split
    · next ends =>
      rw [ih, value, value, zpow_add_one₀ (by norm_num)]
      have digits : x.digits = 10 * (x.digits / 10) := by omega
      have cast : (x.digits : ℚ) = 10 * (x.digits / 10 : Nat) := by exact_mod_cast digits
      rw [cast]
      ring
    · rfl

theorem value_exactDecimal (significand : Nat) (exponent : Int) :
    (exactDecimal significand exponent).value = significand * 2 ^ exponent := by
  simp only [exactDecimal, Scientific.value, Nat.pow_eq]
  rcases le_total 0 exponent with whole | part
  · rw [min_eq_right whole, zpow_eq_div (by norm_num) exponent,
      Int.toNat_of_nonpos (by omega : -exponent ≤ 0)]
    simp
  · have ten : (10 : ℚ) ^ exponent = 2 ^ exponent * 5 ^ exponent := by
      rw [← mul_zpow]
      norm_num
    rw [min_eq_left part, ten, zpow_eq_div (by norm_num : (5 : ℚ) ≠ 0), Int.toNat_of_nonpos part]
    push_cast
    field_simp

theorem ofDecimal_of_neighbour? {value : Binary64} {num den : Nat} {scale : Int} {x : Scientific}
    (found : neighbour? value num den scale = some x) :
    ofDecimal false x.digits x.scale = value := by
  simp only [neighbour?] at found
  split at found
  · next below above =>
    cases found
    dsimp only
    split
    · exact eq_of_beq below
    · exact eq_of_beq above
  · next below _ =>
    cases found
    exact eq_of_beq below
  · next _ above =>
    cases found
    exact eq_of_beq above
  · cases found

/-- The shortest decimal of a value reads back as the value, with the same sign. -/
theorem ofDecimal_shortest (negative : Bool) {significand : Nat} {exponent : Int}
    (nonzero : significand ≠ 0) (format : InFormat significand exponent) :
    ofDecimal negative (shortest significand exponent).digits
        (shortest significand exponent).scale = .finite negative significand exponent := by
  refine Binary64.ofDecimal_signed negative ?_
  rw [shortest]
  dsimp only
  refine (Binary64.ofDecimal_congr false (Scientific.value_trim _ _)).trans ?_
  generalize search : List.findSome? _ _ = found
  cases found with
  | none => exact Binary64.ofDecimal_eq_finite false nonzero format (value_exactDecimal _ _)
  | some x =>
    obtain ⟨count, -, hit⟩ := List.exists_of_findSome?_eq_some search
    exact ofDecimal_of_neighbour? hit

end BindingGen.Decimal
