import BindingGen.Json.Number
import BindingGen.Json.Text

/-!
Passing over a value that nobody wants. Its syntax is checked to any depth, the size of its numbers
is not. The brackets that are still open stand on a stack, the innermost first.
-/

namespace BindingGen.Json

/-- An open bracket. -/
inductive Bracket where
  | list
  | object
  deriving DecidableEq, Repr

/-- The character that closes a bracket. -/
def Bracket.closer : Bracket → Char
  | .list => ']'
  | .object => '\x7d'

/-- The fault of a text that ends inside a bracket. -/
def Bracket.ended : Bracket → Fault
  | .list => .ended .list
  | .object => .ended .object

/-- The fault of two values with neither a comma between them nor a closer after the first. -/
def Bracket.expectedComma : Bracket → Fault
  | .list => .expectedCommaOrBracket
  | .object => .expectedCommaOrBrace

/-- The text after a sequence of at least one digit. -/
def skipDigits (text : List Char) : Except Fault (List Char) :=
  let (ds, rest) := Number.splitDigits text
  if ds.isEmpty then .error .invalidNumber else .ok rest

/-- The text after an exponent, if one stands there. -/
def skipExponent (text : List Char) : Except Fault (List Char) :=
  let unsigned (rest : List Char) : Except Fault (List Char) :=
    match rest with
    | '+' :: rest => skipDigits rest
    | '-' :: rest => skipDigits rest
    | _ => skipDigits rest
  match text with
  | 'e' :: rest => unsigned rest
  | 'E' :: rest => unsigned rest
  | _ => .ok text

/-- The text after a number, from after its sign. -/
def skipNumber (text : List Char) : Except Fault (List Char) := do
  let (ds, rest) := Number.splitDigits text
  if ds.isEmpty ∨ (ds.head? = some '0' ∧ 1 < ds.length) then throw .invalidNumber
  match rest with
  | '.' :: rest => skipExponent (← skipDigits rest)
  | _ => skipExponent rest

/-- What passing over a value comes to at its first character. -/
inductive Opening where
  /-- A value without parts, passed over to the text given. -/
  | plain (rest : List Char)
  /-- A bracket, with the text after it. -/
  | bracket (kind : Bracket) (rest : List Char)

/-- Passes over a value without parts, or over an opening bracket. -/
def opening (limit : Nat) (text : List Char) : Except Fault Opening :=
  match skipSpaces text with
  | [] => .error (.ended .value)
  | 'n' :: rest => (word nullTail rest).map .plain
  | 't' :: rest => (word trueTail rest).map .plain
  | 'f' :: rest => (word falseTail rest).map .plain
  | '"' :: rest => (skipString limit rest).map .plain
  | '[' :: rest => .ok (.bracket .list rest)
  | '\x7b' :: rest => .ok (.bracket .object rest)
  | '-' :: rest => (skipNumber rest).map .plain
  | c :: rest => if c.isDigit then (skipNumber (c :: rest)).map .plain else .error .expectedValue

/-- Passes over what stands before a value inside a bracket: nothing in a list, a key and a colon in
an object. -/
def skipKey (limit : Nat) (kind : Bracket) (text : List Char) : Except Fault (List Char) :=
  match kind with
  | .list => .ok text
  | .object =>
    match skipSpaces text with
    | [] => .error (.ended .object)
    | '"' :: rest => do
      match skipSpaces (← skipString limit rest) with
      | [] => .error (.ended .object)
      | ':' :: rest => .ok rest
      | _ => .error .expectedColon
    | _ => .error .keyNotString

/-- Passes over the closers that follow a value, and over the comma or the key before the next one.
The result has no open bracket left when the whole value has been passed over. `afterValue` says
that a value has just been passed over, so that a comma may come. -/
def closing (limit : Nat) : List Bracket → Bool → List Char → Except Fault (List Bracket × List Char)
  | [], _, text => .ok ([], text)
  | kind :: outer, afterValue, text =>
    match skipSpaces text with
    | [] => .error kind.ended
    | c :: rest =>
      if c == ',' && afterValue then do .ok (kind :: outer, ← skipKey limit kind rest)
      else if c == kind.closer then closing limit outer true rest
      else if afterValue then .error kind.expectedComma
      else do .ok (kind :: outer, ← skipKey limit kind (c :: rest))

/-- Passes over values until no bracket is open; `steps` bounds the values. -/
def skipOpen (limit : Nat) : Nat → List Bracket → List Char → Except Fault (List Char)
  | 0, _, _ => .error (.ended .value)
  | steps + 1, stack, text => do
    let (stack, rest) ←
      match ← opening limit text with
      | .plain rest => closing limit stack true rest
      | .bracket kind rest => closing limit (kind :: stack) false rest
    if stack.isEmpty then .ok rest else skipOpen limit steps stack rest

/-- Passes over one value; `limit` bounds the length of the text. -/
def skipValue (limit : Nat) (text : List Char) : Except Fault (List Char) :=
  skipOpen limit limit [] text

end BindingGen.Json
