import BindingGen.Decimal.Binary64

/-!
Reading numerals. A whole numeral is an optional sign and digits. A decimal numeral also has a
point, an exponent of ten, or is one of the words for infinity and for no number; it reads as the
nearest double.
-/

namespace BindingGen.Decimal

/-- The number that a sequence of digits denotes. -/
def digitsValue (ds : List Char) : Nat := Nat.ofDigitChars 10 ds 0

/-- A text without its sign, and whether the sign is a minus. -/
def splitSign : List Char → Bool × List Char
  | '-' :: rest => (true, rest)
  | '+' :: rest => (false, rest)
  | cs => (false, cs)

/-- The digits at the start of a text, and what follows them. -/
def splitDigits (cs : List Char) : List Char × List Char := cs.span Char.isDigit

/-- The integer a sign and digits denote; none where the text is anything else. -/
def wholeNumeral? (cs : List Char) : Option Int :=
  let (negative, ds) := splitSign cs
  if ds.isEmpty || !ds.all Char.isDigit then none
  else if negative then some (-(digitsValue ds : Int)) else some (digitsValue ds)

/-- The power of ten that an exponent part names; no part at all names the power zero. -/
def exponentPart? : List Char → Option Int
  | [] => some 0
  | c :: rest => if c == 'e' || c == 'E' then wholeNumeral? rest else none

/-- The digits and the power of ten of an unsigned numeral with a digit before its exponent. -/
def scientific? (cs : List Char) : Option (Nat × Int) :=
  let (whole, rest) := splitDigits cs
  let (places, rest) :=
    match rest with
    | '.' :: rest => splitDigits rest
    | _ => ([], rest)
  if whole.isEmpty && places.isEmpty then none
  else (exponentPart? rest).map fun power => (digitsValue (whole ++ places), power - places.length)

/-- The value that a word denotes, in any case of its letters. -/
def wordValue? (negative : Bool) (cs : List Char) : Option Binary64 :=
  let word := cs.map Char.toLower
  if word == ['i', 'n', 'f'] || word == ['i', 'n', 'f', 'i', 'n', 'i', 't', 'y'] then
    some (.infinite negative)
  else if word == ['n', 'a', 'n'] then some .nan
  else none

/-- The double that a decimal numeral reads as; none where the text is no numeral. -/
def decimalNumeral? (cs : List Char) : Option Binary64 :=
  let (negative, rest) := splitSign cs
  match scientific? rest with
  | some (digits, scale) => some (.ofDecimal negative digits scale)
  | none => wordValue? negative rest

example : wholeNumeral? "-007".toList = some (-7) := by decide +kernel
example : wholeNumeral? "+".toList = none ∧ wholeNumeral? "1_0".toList = none := by decide +kernel
example : scientific? "1.".toList = some (1, 0) ∧ scientific? ".5".toList = some (5, -1) ∧
    scientific? "97803.e-14".toList = some (97803, -14) := by decide +kernel
example : scientific? ".".toList = none ∧ scientific? "1e".toList = none ∧
    scientific? "e5".toList = none ∧ scientific? "1e+".toList = none := by decide +kernel
example : decimalNumeral? "-INF".toList = some (.infinite true) ∧
    decimalNumeral? "nAn".toList = some .nan := by decide +kernel

end BindingGen.Decimal
