import BindingGen.Decimal.Layout
import BindingGen.Text.Quoted

/-!
What can be wrong with a JSON text that is read as a record: broken syntax, a value of the wrong
type, and fields that are missing, repeated or out of range.
-/

namespace BindingGen.Json

/-- What was being read when the text ended. -/
inductive Ending where
  | value
  | list
  | object
  | string
  deriving DecidableEq, Repr

/-- A value met where another was wanted. -/
inductive Found where
  | null
  | boolean (value : Bool)
  | integer (value : Int)
  | real (value : Decimal.Binary64)
  | string (content : String)
  | list
  | object
  deriving DecidableEq, Repr

/-- The value that was wanted. -/
inductive Wanted where
  | string
  | boolean
  | list
  | unsigned
  | unit
  | variant
  | record (title : String)
  deriving DecidableEq, Repr

/-- The first thing wrong with a text. -/
inductive Fault where
  | ended (reading : Ending)
  | expectedColon
  | expectedCommaOrBracket
  | expectedCommaOrBrace
  | expectedWord
  | expectedValue
  | invalidEscape
  | invalidNumber
  | numberOutOfRange
  | controlCharacter
  | keyNotString
  | loneSurrogate
  | halfSurrogatePair
  | trailingComma
  | trailingCharacters
  | wrongType (found : Found) (wanted : Wanted)
  | outOfRange (found : Int)
  | tooShort (title : String) (fields : Nat)
  | unknownVariant (name : String) (known : List String)
  | missingField (name : String)
  | repeatedField (name : String)
  deriving DecidableEq, Repr

/-- Floats in messages: positional from 10^-5 up to 10^16, then with a signed exponent of two
digits or more. -/
def realLayout : Decimal.Layout := ⟨-5, 15, true, 2⟩

/-- A name between backticks. -/
def ticked (name : String) : String := "`" ++ name ++ "`"

/-- How a message names what was being read. -/
def Ending.text : Ending → String
  | .value => "a value"
  | .list => "a list"
  | .object => "an object"
  | .string => "a string"

/-- How a message shows a value that was met. -/
def Found.text : Found → String
  | .null => "null"
  | .boolean value => "boolean " ++ ticked (if value then "true" else "false")
  | .integer value => "integer " ++ ticked (toString value)
  | .real value => "floating point " ++ ticked (realLayout.text value)
  | .string content => "string " ++ Text.quoted content
  | .list => "sequence"
  | .object => "map"

/-- How a message names what was wanted. -/
def Wanted.text : Wanted → String
  | .string => "a string"
  | .boolean => "a boolean"
  | .list => "a sequence"
  | .unsigned => "u32"
  | .unit => "unit"
  | .variant => "variant identifier"
  | .record title => "struct " ++ title

/-- The message of a fault. -/
def Fault.message : Fault → String
  | .ended reading => "EOF while parsing " ++ reading.text
  | .expectedColon => "expected " ++ ticked ":"
  | .expectedCommaOrBracket => "expected " ++ ticked "," ++ " or " ++ ticked "]"
  | .expectedCommaOrBrace => "expected " ++ ticked "," ++ " or " ++ ticked "\x7d"
  | .expectedWord => "expected ident"
  | .expectedValue => "expected value"
  | .invalidEscape => "invalid escape"
  | .invalidNumber => "invalid number"
  | .numberOutOfRange => "number out of range"
  | .controlCharacter => "control character (\\u0000-\\u001F) found while parsing a string"
  | .keyNotString => "key must be a string"
  | .loneSurrogate => "lone leading surrogate in hex escape"
  | .halfSurrogatePair => "unexpected end of hex escape"
  | .trailingComma => "trailing comma"
  | .trailingCharacters => "trailing characters"
  | .wrongType found wanted => "invalid type: " ++ found.text ++ ", expected " ++ wanted.text
  | .outOfRange found =>
    "invalid value: integer " ++ ticked (toString found) ++ ", expected " ++ Wanted.unsigned.text
  | .tooShort title fields =>
    "invalid length 0, expected " ++ (Wanted.record title).text ++ " with " ++ toString fields ++
      " elements"
  | .unknownVariant name known =>
    "unknown variant " ++ ticked name ++ ", expected " ++ " or ".intercalate (known.map ticked)
  | .missingField name => "missing field " ++ ticked name
  | .repeatedField name => "duplicate field " ++ ticked name

end BindingGen.Json
