import BindingGen.Text.Blank
import BindingGen.Decimal.Numeral
import BindingGen.Decimal.Layout

/-!
Default values. The text of a default is read into the class of literal it belongs to; a text of no
class is carried as written. Writing a literal gives its display text, in which every string has
single quotes and every number its plain spelling.
-/

namespace BindingGen

/-- A default value, by class. -/
inductive Literal where
  | none
  | bool (value : Bool)
  | int (value : Int)
  | float (value : Decimal.Binary64)
  | str (content : String)
  /-- Text of no other class, as written. -/
  | other (text : String)
  deriving DecidableEq, Repr

namespace Literal

/-- The integers a literal may hold, those of 64 bits. -/
def InRange (n : Int) : Prop := -(Nat.pow 2 63 : Nat) ≤ n ∧ n < (Nat.pow 2 63 : Nat)

instance (n : Int) : Decidable (InRange n) := inferInstanceAs (Decidable (_ ∧ _))

/-- The integer that a text denotes, if it is in range. -/
def integer? (cs : List Char) : Option Int :=
  (Decimal.wholeNumeral? cs).filter fun n => InRange n

/-- The characters between two equal quotes of either kind. -/
def quoted? (cs : List Char) : Option (List Char) :=
  match cs with
  | first :: rest =>
    if (first == '\'' || first == '"') && rest.getLast? == some first then some rest.dropLast
    else Option.none
  | [] => Option.none

/-- The literal that a text without surrounding blanks spells. -/
def ofTrimmed (cs : List Char) : Literal :=
  if cs == ['N', 'o', 'n', 'e'] then .none
  else if cs == ['T', 'r', 'u', 'e'] then .bool true
  else if cs == ['F', 'a', 'l', 's', 'e'] then .bool false
  else
    match integer? cs with
    | some n => .int n
    | Option.none =>
      match Decimal.decimalNumeral? cs with
      | some x => .float x
      | Option.none =>
        match quoted? cs with
        | some content => .str (String.ofList content)
        | Option.none => .other (String.ofList cs)

/-- The literal that a text spells; surrounding blanks do not count. -/
def ofText (s : String) : Literal := ofTrimmed (Text.trimChars s.toList)

/-- Floats of literals: positional from 10^-4 up to 10^16, with a bare exponent beyond. -/
def floatLayout : Decimal.Layout := ⟨-4, 15, false, 1⟩

/-- The display text of a literal. -/
def text : Literal → String
  | .none => "None"
  | .bool true => "True"
  | .bool false => "False"
  | .int n => toString n
  | .float x => floatLayout.text x
  | .str content => "'" ++ content ++ "'"
  | .other written => written

example : ofText " +5 " = .int 5 := by decide +kernel
example : ofText "\"x\"" = .str "x" ∧ ofText "'" = .other "'" ∧ ofText "''" = .str "" := by
  decide +kernel
example : (ofText "9223372036854775808").text = "9.223372036854776e18" := by decide +kernel
example : (ofText "1e5").text = "100000.0" ∧ (ofText "0.000099999").text = "9.9999e-5" ∧
    (ofText "-.25").text = "-0.25" ∧ (ofText "1e16").text = "1e16" ∧
    (ofText "-0.0").text = "-0.0" := by decide +kernel

end Literal

end BindingGen
