import BindingGen.Initializer
import BindingGen.Text.Identifier

/-!
The interned strings that a text refers to. A reference is the marker with as many word characters
after it as follow, at least one; references are found from left to right and do not overlap.
-/

namespace BindingGen.Symbol

/-- The marker of a reference. -/
def marker : List Char := internMarker.toList

/-- The text after the marker, where the text starts with it. -/
def afterMarker? (text : List Char) : Option (List Char) :=
  if marker.isPrefixOf text then some (text.drop marker.length) else none

/-- The references in a text, in order. -/
def scan : List Char → List (List Char)
  | [] => []
  | c :: rest =>
    match afterMarker? (c :: rest) with
    | none => scan rest
    | some after =>
      match after.takeWhile Text.isWordChar with
      | [] => scan rest
      | d :: name => (d :: name) :: scan (rest.drop (marker.length + name.length))
termination_by text => text.length
decreasing_by
  all_goals simp only [List.length_cons, List.length_drop]
  all_goals omega

/-- The strings that a text refers to, in order. -/
def references (text : String) : List String := (scan text.toList).map String.ofList

example : references "xMP_QSTR_a MP_QSTR_MP_QSTR_b(MP_QSTR_)MP_QSTR_é" = ["a", "MP_QSTR_b"] := by
  decide +kernel

end BindingGen.Symbol
