/-!
Lines of a text. A line feed ends a line, and one carriage return before it belongs to the ending.
A carriage return anywhere else is an ordinary character, and a text that ends with a line feed has
no empty last line.
-/

namespace BindingGen.Text

/-- The lines of a text, each without its ending. -/
def splitLines : List Char → List (List Char)
  | [] => []
  | '\n' :: rest => [] :: splitLines rest
  | '\r' :: '\n' :: rest => [] :: splitLines rest
  | c :: rest =>
    match splitLines rest with
    | [] => [[c]]
    | line :: lines => (c :: line) :: lines

example : splitLines "a\r\nb\rc\n\n".toList = [['a'], ['b', '\r', 'c'], []] := by decide +kernel
example : splitLines "a\r".toList = [['a', '\r']] := by decide +kernel

end BindingGen.Text
