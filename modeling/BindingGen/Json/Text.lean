import BindingGen.Json.Reader

/-!
Strings. Between the quotes a character stands for itself or is escaped; a character beyond the
first 65536 may be escaped as a pair of surrogates. `Piece` is one step of reading, so that a string
is read piece by piece up to its closing quote.
-/

namespace BindingGen.Json

/-- The value of a hexadecimal digit. -/
def hexValue? (c : Char) : Option Nat :=
  if c.isDigit then some (c.toNat - '0'.toNat)
  else if 'a' ≤ c ∧ c ≤ 'f' then some (c.toNat - 'a'.toNat + 10)
  else if 'A' ≤ c ∧ c ≤ 'F' then some (c.toNat - 'A'.toNat + 10)
  else none

/-- The value of four hexadecimal digits. -/
def hexValue4? (a b c d : Char) : Option Nat := do
  some ((((← hexValue? a) * 16 + (← hexValue? b)) * 16 + (← hexValue? c)) * 16 + (← hexValue? d))

/-- Reads the four digits of a code unit. A text with fewer than four bytes left has ended. -/
def codeUnit : Reader Nat := fun text =>
  if (text.take 4).foldl (fun size c => size + c.utf8Size) 0 < 4 then .error (.ended .string)
  else
    match text with
    | a :: b :: c :: d :: rest =>
      match hexValue4? a b c d with
      | some unit => .ok (unit, rest)
      | none => .error .invalidEscape
    | _ => .error .invalidEscape

/-- The first and the second unit of a surrogate pair. -/
def isHighSurrogate (unit : Nat) : Bool := 0xD800 ≤ unit && unit < 0xDC00
def isLowSurrogate (unit : Nat) : Bool := 0xDC00 ≤ unit && unit < 0xE000

/-- The text after the start of an escaped code unit, which must follow a high surrogate. -/
def pairOpening (text : List Char) : Except Fault (List Char) :=
  match text with
  | [] => .error (.ended .string)
  | '\\' :: 'u' :: rest => .ok rest
  | ['\\'] => .error (.ended .string)
  | _ => .error .halfSurrogatePair

/-- Reads a character escaped by its code units, from after the letter of the escape. -/
def escapedUnits : Reader Char := fun text =>
  match codeUnit text with
  | .error fault => .error fault
  | .ok (high, rest) =>
    if isLowSurrogate high then .error .loneSurrogate
    else if !isHighSurrogate high then .ok (Char.ofNat high, rest)
    else
      match pairOpening rest with
      | .error fault => .error fault
      | .ok rest =>
        match codeUnit rest with
        | .error fault => .error fault
        | .ok (low, rest) =>
          if isLowSurrogate low then
            .ok (Char.ofNat (0x10000 + (high - 0xD800) * 0x400 + (low - 0xDC00)), rest)
          else .error .loneSurrogate

/-- The character that an escape of one letter stands for. -/
def shortEscape? : Char → Option Char
  | '"' => some '"'
  | '\\' => some '\\'
  | '/' => some '/'
  | 'b' => some '\x08'
  | 'f' => some '\x0c'
  | 'n' => some '\n'
  | 'r' => some '\r'
  | 't' => some '\t'
  | _ => none

/-- Reads an escaped character, from after the backslash. -/
def escaped : Reader Char := fun text =>
  match text with
  | [] => .error (.ended .string)
  | 'u' :: rest => escapedUnits rest
  | c :: rest =>
    match shortEscape? c with
    | some plain => .ok (plain, rest)
    | none => .error .invalidEscape

/-- A step of reading a string: its closing quote or one character. -/
inductive Piece where
  | closing
  | char (c : Char)
  deriving DecidableEq, Repr

/-- Reads one step of a string; `unescape` reads what follows a backslash. -/
def piece (unescape : Reader Char) : Reader Piece := fun text =>
  match text with
  | [] => .error (.ended .string)
  | '"' :: rest => .ok (.closing, rest)
  | '\\' :: rest => (unescape.map Piece.char) rest
  | c :: rest => if c.toNat < 0x20 then .error .controlCharacter else .ok (.char c, rest)

/-- Reads the characters of a string up to its closing quote, given those before it in reverse. -/
def pieces (unescape : Reader Char) : Nat → List Char → Reader (List Char)
  | 0, _, _ => .error (.ended .string)
  | limit + 1, before, text =>
    match piece unescape text with
    | .error fault => .error fault
    | .ok (.closing, rest) => .ok (before.reverse, rest)
    | .ok (.char c, rest) => pieces unescape limit (c :: before) rest

/-- Reads a string from after its opening quote; `limit` bounds the steps. -/
def string (limit : Nat) : Reader String := (pieces escaped limit []).map String.ofList

/-- Passes over an escape. Its digits are checked, its surrogates are not. -/
def skippedEscape : Reader Char := fun text =>
  match text with
  | [] => .error (.ended .string)
  | 'u' :: rest => (codeUnit.map Char.ofNat) rest
  | c :: rest => if (shortEscape? c).isSome then .ok (c, rest) else .error .invalidEscape

/-- Passes over a string from after its opening quote. -/
def skipString (limit : Nat) (text : List Char) : Except Fault (List Char) :=
  match pieces skippedEscape limit [] text with
  | .ok (_, rest) => .ok rest
  | .error fault => .error fault

end BindingGen.Json
