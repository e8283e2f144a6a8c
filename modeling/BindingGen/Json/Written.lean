/-!
JSON texts of values, without any space between their parts. Strings are quoted and escaped so that
each reads back as itself.
-/

namespace BindingGen.Json

/-- The digit of a value below sixteen. -/
def hexDigit (n : Nat) : Char :=
  if n < 10 then Char.ofNat ('0'.toNat + n) else Char.ofNat ('a'.toNat + n - 10)

/-- A character as it stands inside a string. -/
def writtenChar (c : Char) : List Char :=
  match c with
  | '"' => ['\\', '"']
  | '\\' => ['\\', '\\']
  | '\x08' => ['\\', 'b']
  | '\x0c' => ['\\', 'f']
  | '\n' => ['\\', 'n']
  | '\r' => ['\\', 'r']
  | '\t' => ['\\', 't']
  | c =>
    if c.toNat < 0x20 then ['\\', 'u', '0', '0', hexDigit (c.toNat / 16), hexDigit (c.toNat % 16)]
    else [c]

/-- A string. -/
def writtenString (s : String) : List Char := '"' :: s.toList.flatMap writtenChar ++ ['"']

/-- A truth value. -/
def writtenBool (b : Bool) : List Char := (if b then "true" else "false").toList

/-- A natural number. -/
def writtenNat (n : Nat) : List Char := Nat.toDigits 10 n

/-- A list of values. -/
def writtenList (values : List (List Char)) : List Char :=
  '[' :: [','].intercalate values ++ [']']

/-- An object of the fields that have a value. -/
def writtenObject (fields : List (String × Option (List Char))) : List Char :=
  let field : String × Option (List Char) → Option (List Char)
    | (name, some value) => some (writtenString name ++ ':' :: value)
    | (_, none) => none
  '\x7b' :: [','].intercalate (fields.filterMap field) ++ ['\x7d']

end BindingGen.Json
