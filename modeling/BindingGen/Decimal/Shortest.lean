import BindingGen.Decimal.Binary64

/-!
The shortest decimal of a double: the fewest digits that read back as the same value, and of two
such decimals the nearer one. The search tries the two neighbours of the value on the grid of one
digit, of two digits and so on; whether a decimal reads back is asked of the reader itself.
-/

namespace BindingGen.Decimal

/-- A decimal number `digits * 10 ^ scale`. -/
structure Scientific where
  digits : Nat
  scale : Int
  deriving DecidableEq, Repr

/-- The power of ten of the leading digit of a positive ratio above `10 ^ -400`. -/
def leadingPower (num den : Nat) : Int :=
  ((Nat.toDigits 10 (num * Nat.pow 10 400 / den)).length : Int) - 401

/-- The ratio in units of `10 ^ scale`, as a ratio. -/
def inTens (num den : Nat) (scale : Int) : Nat × Nat :=
  (num * Nat.pow 10 (-scale).toNat, den * Nat.pow 10 scale.toNat)

/-- The neighbour of a ratio on the grid of `10 ^ scale` that reads back as the value. Where both
do it is the nearer, and the greater of two equally near ones. -/
def neighbour? (value : Binary64) (num den : Nat) (scale : Int) : Option Scientific :=
  let (n, d) := inTens num den scale
  let below := n / d
  let readsBack (digits : Nat) : Bool := Binary64.ofDecimal false digits scale == value
  match readsBack below, readsBack (below + 1) with
  | true, true => some ⟨if 2 * (n % d) < d then below else below + 1, scale⟩
  | true, false => some ⟨below, scale⟩
  | false, true => some ⟨below + 1, scale⟩
  | false, false => none

/-- The decimal that equals a finite value exactly. -/
def exactDecimal (significand : Nat) (exponent : Int) : Scientific :=
  ⟨significand * Nat.pow 2 exponent.toNat * Nat.pow 5 (-exponent).toNat, min exponent 0⟩

/-- The same number without trailing zeros among its digits; `fuel` bounds their count. -/
def Scientific.trim : Nat → Scientific → Scientific
  | 0, x => x
  | fuel + 1, x =>
    if x.digits ≠ 0 ∧ x.digits % 10 = 0 then trim fuel ⟨x.digits / 10, x.scale + 1⟩ else x

/-- The most digits that any value needs. -/
def mostDigits : Nat := 17

/-- The shortest decimal of a positive finite value. -/
def shortest (significand : Nat) (exponent : Int) : Scientific :=
  let (num, den) := Binary64.ratio significand exponent
  let lead := leadingPower num den
  let onGrid (count : Nat) : Option Scientific :=
    neighbour? (.finite false significand exponent) num den (lead - count)
  let found := ((List.range mostDigits).findSome? onGrid).getD (exactDecimal significand exponent)
  found.trim (mostDigits + 1)

example : shortest (2 ^ 52) (-52) = ⟨1, 0⟩ := by decide +kernel
example : shortest 1 (-1074) = ⟨5, -324⟩ := by decide +kernel
example : shortest (2 ^ 52) (-77) = ⟨29802322387695313, -24⟩ := by decide +kernel
example : shortest (2 ^ 53 - 1) 971 = ⟨17976931348623157, 292⟩ := by decide +kernel

end BindingGen.Decimal
