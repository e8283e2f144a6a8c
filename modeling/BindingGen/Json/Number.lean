import BindingGen.Json.Reader

/-!
Numbers. Digits are gathered into 64 bits: those of the whole part that no longer fit raise the
power of ten, those of the fraction are dropped. A number with a fraction, an exponent or more than
64 bits is a double, computed from the gathered digits with one rounding for each multiplication or
division by a power of ten.
-/

namespace BindingGen.Json

open Decimal (Binary64)

/-- A number as it was read. -/
inductive Number where
  | integer (value : Int)
  | real (value : Binary64)
  deriving DecidableEq, Repr

/-- A number as a value that was met. -/
def Number.found : Number → Found
  | .integer value => .integer value
  | .real value => .real value

namespace Number

/-- Gathered digits stay below this number. -/
def wordBound : Nat := Nat.pow 2 64

/-- Exponents beyond this number are settled without computing the power. -/
def exponentBound : Nat := Nat.pow 2 31 - 1

/-- The greatest power of ten used in one step. -/
def powerStep : Nat := 308

/-- The double nearest to a power of ten. -/
def tenTo (power : Nat) : Binary64 := .ofDecimal false 1 power

/-- A double divided by a power of ten, in steps of at most `10 ^ 308`; zero stays zero. -/
def divideByTens (value : Binary64) (power : Nat) : Binary64 :=
  if power ≤ powerStep then value.div (tenTo power)
  else if value.isZero then value
  else divideByTens (value.div (tenTo powerStep)) (power - powerStep)
termination_by power
decreasing_by simp only [powerStep] at *; omega

/-- The double of gathered digits and a power of ten. -/
def scaled (negative : Bool) (digits : Nat) (power : Int) : Except Fault Binary64 :=
  let start := Binary64.ofDecimal false digits 0
  let signed (x : Binary64) : Binary64 := if negative then x.neg else x
  if power < 0 then .ok (signed (divideByTens start power.natAbs))
  else if powerStep < power.toNat then
    if start.isZero then .ok (signed start) else .error .numberOutOfRange
  else
    match start.mul (tenTo power.toNat) with
    | .infinite _ => .error .numberOutOfRange
    | value => .ok (signed value)

/-- The value of one digit. -/
def digitValue (c : Char) : Nat := c.toNat - '0'.toNat

/-- As many of the digits as fit into the word, and the digits that are left over. -/
def gather (digits : Nat) : List Char → Nat × List Char
  | [] => (digits, [])
  | d :: ds =>
    if 10 * digits + digitValue d < wordBound then gather (10 * digits + digitValue d) ds
    else (digits, d :: ds)

/-- The text at its first character that is no digit, and the digits before it. -/
def splitDigits (text : List Char) : List Char × List Char := text.span Char.isDigit

/-- Reads the exponent of a number, from after its letter. -/
def exponent (negative : Bool) (digits : Nat) (power : Int) : Reader Number := fun text =>
  let (below, text) :=
    match text with
    | '+' :: rest => (false, rest)
    | '-' :: rest => (true, rest)
    | _ => (false, text)
  match text with
  | [] => .error (.ended .value)
  | c :: _ =>
    if !c.isDigit then .error .invalidNumber
    else
      let (ds, rest) := splitDigits text
      let size := Nat.ofDigitChars 10 ds 0
      if size ≤ exponentBound then
        match scaled negative digits (if below then power - size else power + size) with
        | .ok value => .ok (.real value, rest)
        | .error fault => .error fault
      else if digits ≠ 0 ∧ !below then .error .numberOutOfRange
      else .ok (.real (.zero negative), rest)

/-- Reads what follows the digits of a number that is a double: an exponent or nothing. -/
def afterDigits (negative : Bool) (digits : Nat) (power : Int) : Reader Number := fun text =>
  match text with
  | 'e' :: rest => exponent negative digits power rest
  | 'E' :: rest => exponent negative digits power rest
  | _ =>
    match scaled negative digits power with
    | .ok value => .ok (.real value, text)
    | .error fault => .error fault

/-- Reads the fraction of a number, from after its point. -/
def fraction (negative : Bool) (digits : Nat) (power : Int) : Reader Number := fun text =>
  let (ds, rest) := splitDigits text
  if ds.isEmpty then
    match rest with
    | [] => .error (.ended .value)
    | _ => .error .invalidNumber
  else
    let (gathered, dropped) := gather digits ds
    afterDigits negative gathered (power - (ds.length - dropped.length : Nat)) rest

/-- The number of whole digits that fit: an integer, save that minus zero and negative ones beyond
64 bits are doubles. -/
def whole (negative : Bool) (digits : Nat) : Number :=
  if !negative then .integer digits
  else if 0 < digits ∧ digits ≤ wordBound / 2 then .integer (-(digits : Int))
  else .real (Binary64.ofDecimal true digits 0)

/-- Reads a number from after its sign. -/
def unsigned (negative : Bool) : Reader Number := fun text =>
  match text with
  | [] => .error (.ended .value)
  | c :: _ =>
    let (ds, rest) := splitDigits text
    if ds.isEmpty then .error .invalidNumber
    else if c == '0' ∧ 1 < ds.length then .error .invalidNumber
    else
      let (digits, beyond) := gather 0 ds
      match rest with
      | '.' :: rest => fraction negative digits beyond.length rest
      | 'e' :: rest => exponent negative digits beyond.length rest
      | 'E' :: rest => exponent negative digits beyond.length rest
      | _ =>
        if beyond.isEmpty then .ok (whole negative digits, rest)
        else afterDigits negative digits beyond.length rest

/-- Reads a number. -/
def read : Reader Number := fun text =>
  match text with
  | '-' :: rest => unsigned true rest
  | _ => unsigned false text

end Number

end BindingGen.Json
