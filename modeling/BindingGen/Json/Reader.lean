import BindingGen.Json.Fault

/-!
Readers take the text that is left and give a value with the text after it, or the first fault they
meet. The text is read once from left to right, so of two faults the earlier one is reported.
-/

namespace BindingGen.Json

/-- Reads a value off the start of a text. -/
abbrev Reader (α : Type) := List Char → Except Fault (α × List Char)

/-- A value computed from the value that was read. -/
def Reader.map {α β : Type} (f : α → β) (reader : Reader α) : Reader β := fun text =>
  match reader text with
  | .ok (value, rest) => .ok (f value, rest)
  | .error fault => .error fault

/-- The four characters that may stand between any two parts of a text. -/
def isSpace (c : Char) : Bool := c == ' ' || c == '\t' || c == '\n' || c == '\r'

/-- The text after its leading spaces. -/
def skipSpaces (text : List Char) : List Char := text.dropWhile isSpace

/-- The text after the letters of a word; they must stand there without a gap. -/
def word : List Char → List Char → Except Fault (List Char)
  | [], text => .ok text
  | _ :: _, [] => .error (.ended .value)
  | letter :: letters, c :: rest => if c == letter then word letters rest else .error .expectedWord

/-- The rest of `null` after its first letter, and likewise of the two truth values. -/
def nullTail : List Char := ['u', 'l', 'l']
def trueTail : List Char := ['r', 'u', 'e']
def falseTail : List Char := ['a', 'l', 's', 'e']

end BindingGen.Json
