/-!
Blank characters are those with the Unicode property White_Space. They are dropped from the start
of a text or trimmed from both ends.
-/

namespace BindingGen.Text

/-- The characters with the property White_Space. The zero-width characters are not among them. -/
def isBlank (c : Char) : Bool :=
  let n := c.toNat
  (0x9 ≤ n && n ≤ 0xD) || n == 0x20 || n == 0x85 || n == 0xA0 || n == 0x1680 ||
    (0x2000 ≤ n && n ≤ 0x200A) || n == 0x2028 || n == 0x2029 || n == 0x202F || n == 0x205F ||
    n == 0x3000

/-- The characters after the leading blanks. -/
def dropBlanks (cs : List Char) : List Char := cs.dropWhile isBlank

/-- The characters between the leading and the trailing blanks. -/
def trimChars (cs : List Char) : List Char := (dropBlanks (dropBlanks cs).reverse).reverse

/-- A text without its leading and trailing blanks. -/
def trim (s : String) : String := String.ofList (trimChars s.toList)

example : trim "\u2003\u3000 a b\u0085\n" = "a b" := by decide +kernel
example : trim "\u200b a \ufeff" = "\u200b a \ufeff" := by decide +kernel

end BindingGen.Text
