/-!
Identifiers of C: an ASCII letter or an underscore, then ASCII letters, digits and underscores.
-/

namespace BindingGen.Text

/-- The characters that may continue an identifier. -/
def isWordChar (c : Char) : Bool := c.isAlphanum || c == '_'

/-- The characters that may start an identifier. -/
def isWordStart (c : Char) : Bool := c.isAlpha || c == '_'

/-- Whether the characters spell one identifier. -/
def isIdentifierChars : List Char → Bool
  | [] => false
  | c :: rest => isWordStart c && rest.all isWordChar

/-- Whether a text is one identifier. -/
def isIdentifier (s : String) : Bool := isIdentifierChars s.toList

example : isIdentifier "_a9" = true ∧ isIdentifier "" = false ∧ isIdentifier "2a" = false ∧
    isIdentifier "é" = false := by decide +kernel

end BindingGen.Text
