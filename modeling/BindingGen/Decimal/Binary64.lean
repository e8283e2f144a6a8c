/-!
Values of the IEEE 754 double format, kept as exact numbers: a finite one is a sign, a significand
below 2^53 and an exponent of two. Every operation computes the exact result as a ratio of natural
numbers and rounds it once, to the nearest value and a tie to the even significand (`ofRatio`).
-/

namespace BindingGen.Decimal

/-- A value of the double format. A finite one stands for `significand * 2 ^ exponent`. -/
inductive Binary64 where
  | nan
  | infinite (negative : Bool)
  | finite (negative : Bool) (significand : Nat) (exponent : Int)
  deriving DecidableEq, Repr

namespace Binary64

/-- The exponent of the least values, those of reduced precision. -/
def leastExponent : Int := -1074

/-- The greatest exponent of a finite value. -/
def greatestExponent : Int := 971

-- Powers are written by name: what the sign means depends on the instances that are in scope.
/-- Significands are below this number, and from its half on except at the least exponent. -/
def significandBound : Nat := Nat.pow 2 53

/-- Whether sign, significand and exponent are those of a value of the format. -/
def InFormat (significand : Nat) (exponent : Int) : Prop :=
  significand < significandBound ∧ leastExponent ≤ exponent ∧ exponent ≤ greatestExponent ∧
    (significandBound ≤ 2 * significand ∨ exponent = leastExponent)

/-- Zero with a sign. -/
def zero (negative : Bool) : Binary64 := .finite negative 0 leastExponent

/-- Whether a value is a zero of either sign. -/
def isZero : Binary64 → Bool
  | .finite _ significand _ => significand == 0
  | _ => false

/-- The value with the other sign. -/
def neg : Binary64 → Binary64
  | .nan => .nan
  | .infinite negative => .infinite !negative
  | .finite negative significand exponent => .finite (!negative) significand exponent

/-- The natural number nearest to a ratio; halfway between two, the even one. -/
def roundDiv (num den : Nat) : Nat :=
  let quotient := num / den
  let rest := 2 * (num % den)
  if rest < den then quotient
  else if den < rest then quotient + 1
  else quotient + quotient % 2

/-- The ratio `num / den` divided by `2 ^ exponent`, as a ratio. -/
def inUnits (num den : Nat) (exponent : Int) : Nat × Nat :=
  (num * Nat.pow 2 (-exponent).toNat, den * Nat.pow 2 exponent.toNat)

/-- The exponent at which a positive ratio has a whole part of 53 bits, or the least one. -/
def unitExponent (num den : Nat) : Int :=
  let guess := max leastExponent ((num.log2 : Int) - den.log2 - 53)
  let (n, d) := inUnits num den guess
  if n / d < significandBound then guess else guess + 1

/-- The value nearest to a ratio of natural numbers, with a sign. -/
def ofRatio (negative : Bool) (num den : Nat) : Binary64 :=
  if num = 0 then zero negative
  else
    let unit := unitExponent num den
    let (n, d) := inUnits num den unit
    let rounded := roundDiv n d
    let (significand, exponent) :=
      if rounded = significandBound then (significandBound / 2, unit + 1) else (rounded, unit)
    if greatestExponent < exponent then .infinite negative
    else .finite negative significand exponent

/-- The value nearest to `digits * 10 ^ scale`. Scales so large or so small that every digit
sequence of that length overflows or vanishes are settled without computing the power. -/
def ofDecimal (negative : Bool) (digits : Nat) (scale : Int) : Binary64 :=
  if digits = 0 then zero negative
  else if 309 < scale then .infinite negative
  else if (digits.log2 : Int) + 1 + 3 * scale ≤ leastExponent - 1 then zero negative
  else ofRatio negative (digits * Nat.pow 10 scale.toNat) (Nat.pow 10 (-scale).toNat)

/-- The magnitude of a finite value as a ratio. -/
def ratio (significand : Nat) (exponent : Int) : Nat × Nat :=
  (significand * Nat.pow 2 exponent.toNat, Nat.pow 2 (-exponent).toNat)

/-- The rounded product of two values. -/
def mul : Binary64 → Binary64 → Binary64
  | .finite s m e, .finite t n f =>
    let (a, b) := ratio m e
    let (c, d) := ratio n f
    ofRatio (s != t) (a * c) (b * d)
  | .infinite s, .infinite t => .infinite (s != t)
  | .infinite s, .finite t n _ => if n = 0 then .nan else .infinite (s != t)
  | .finite s m _, .infinite t => if m = 0 then .nan else .infinite (s != t)
  | _, _ => .nan

/-- The rounded quotient of two values. -/
def div : Binary64 → Binary64 → Binary64
  | .finite s m e, .finite t n f =>
    if n = 0 then (if m = 0 then .nan else .infinite (s != t))
    else
      let (a, b) := ratio m e
      let (c, d) := ratio n f
      ofRatio (s != t) (a * d) (b * c)
  | .infinite s, .finite t _ _ => .infinite (s != t)
  | .finite s _ _, .infinite t => zero (s != t)
  | _, _ => .nan

example : ofDecimal false 1 0 = .finite false (2 ^ 52) (-52) := by decide +kernel
example : ofDecimal true 5 (-324) = .finite true 1 (-1074) := by decide +kernel
example : ofDecimal false 2 (-324) = zero false := by decide +kernel
example : ofDecimal false 17976931348623157 292 = .finite false (2 ^ 53 - 1) 971 := by
  decide +kernel
example : ofDecimal false 18 307 = .infinite false := by decide +kernel
example : ofDecimal false 9007199254740993 0 = .finite false (2 ^ 52) 1 := by decide +kernel
example : div (ofDecimal false 1 0) (ofDecimal false 10 0) = ofDecimal false 1 (-1) := by
  decide +kernel

end Binary64

end BindingGen.Decimal
