import BindingGen.Decimal.Shortest

/-!
How a double is written: its shortest digits, positionally or with a power of ten. A `Layout` says
which powers are written positionally and how an exponent looks; digits and values are the same in
every layout.
-/

namespace BindingGen.Decimal

/-- The choices that tell one way of writing doubles from another. -/
structure Layout where
  /-- The least power of the leading digit that is written positionally. -/
  leastPlain : Int
  /-- The greatest power of the leading digit that is written positionally. -/
  greatestPlain : Int
  /-- Whether an exponent of zero or more has a plus sign. -/
  plusSign : Bool
  /-- The least count of digits in an exponent. -/
  exponentWidth : Nat
  deriving Repr

namespace Layout

/-- The exponent of a number with a power of ten. -/
def exponentText (layout : Layout) (power : Int) : List Char :=
  let ds := Nat.toDigits 10 power.natAbs
  let sign := if power < 0 then ['-'] else if layout.plusSign then ['+'] else []
  sign ++ List.replicate (layout.exponentWidth - ds.length) '0' ++ ds

/-- Digits with the point after the first `places` of them, filled up with zeros; at least one digit
stands on either side. -/
def positional (ds : List Char) (places : Int) : List Char :=
  if places ≤ 0 then '0' :: '.' :: (List.replicate (-places).toNat '0' ++ ds)
  else
    let whole := ds.take places.toNat
    let part := ds.drop places.toNat
    whole ++ List.replicate (places.toNat - ds.length) '0' ++
      '.' :: (if part.isEmpty then ['0'] else part)

/-- Digits with the point after the first, and the power of ten. -/
def withPower (layout : Layout) (ds : List Char) (power : Int) : List Char :=
  let part := ds.drop 1
  ds.take 1 ++ (if part.isEmpty then [] else '.' :: part) ++ 'e' :: layout.exponentText power

/-- A positive decimal. -/
def decimalText (layout : Layout) (x : Scientific) : List Char :=
  let ds := Nat.toDigits 10 x.digits
  let power := x.scale + ds.length - 1
  if layout.leastPlain ≤ power ∧ power ≤ layout.greatestPlain then positional ds (power + 1)
  else layout.withPower ds power

/-- A value in this layout. -/
def chars (layout : Layout) : Binary64 → List Char
  | .nan => ['N', 'a', 'N']
  | .infinite negative => (if negative then ['-'] else []) ++ ['i', 'n', 'f']
  | .finite negative significand exponent =>
    (if negative then ['-'] else []) ++
      (if significand = 0 then ['0', '.', '0']
       else layout.decimalText (shortest significand exponent))

/-- A value in this layout, as a string. -/
def text (layout : Layout) (value : Binary64) : String := String.ofList (layout.chars value)

end Layout

end BindingGen.Decimal
