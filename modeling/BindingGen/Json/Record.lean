import BindingGen.Json.Value

/-!
Records. A record is an object with the fields that its `RecordFormat` lists, in any order and among
unknown ones, or a list of those fields in the order of the format. The first field is required and
the others have a value of their own when they are left out.
-/

namespace BindingGen.Json

/-- How a record is read: its title in messages, its fields, each with a reader that enters the
value into a record, and the record without any field. -/
structure RecordFormat (ρ : Type) where
  title : String
  fields : List (String × (ρ → Reader ρ))
  vacant : ρ

/-- The name of the required field. -/
def RecordFormat.required {ρ : Type} (format : RecordFormat ρ) : String :=
  (format.fields.head?.map Prod.fst).getD ""

/-- The text at the opening quote of the next key of an object, or at its closer. -/
def nextKey (first : Bool) (text : List Char) : Except Fault (Bool × List Char) :=
  let key (text : List Char) : Except Fault (Bool × List Char) :=
    match text with
    | [] => .error (.ended .value)
    | '"' :: rest => .ok (true, rest)
    | '\x7d' :: _ => .error .trailingComma
    | _ => .error .keyNotString
  match skipSpaces text with
  | [] => .error (.ended .object)
  | '\x7d' :: rest => .ok (false, rest)
  | c :: rest =>
    if first then key (c :: rest)
    else if c == ',' then key (skipSpaces rest)
    else .error .expectedCommaOrBrace

/-- The text after the colon of a field. -/
def afterColon (text : List Char) : Except Fault (List Char) :=
  match skipSpaces text with
  | [] => .error (.ended .object)
  | ':' :: rest => .ok rest
  | _ => .error .expectedColon

/-- Reads the fields of an object from after its brace. `given` are the known fields met so far. -/
def objectFields {ρ : Type} (limit : Nat) (format : RecordFormat ρ) :
    Nat → Bool → List String → ρ → Reader ρ
  | 0, _, _, _, _ => .error (.ended .object)
  | steps + 1, first, given, record, text => do
    let (more, text) ← nextKey first text
    if !more then
      if given.contains format.required then return (record, text)
      else throw (.missingField format.required)
    let (name, text) ← string limit text
    match format.fields.lookup name with
    | none =>
      let text ← skipValue limit (← afterColon text)
      objectFields limit format steps false given record text
    | some enter =>
      if given.contains name then throw (.repeatedField name)
      let (record, text) ← enter record (← afterColon text)
      objectFields limit format steps false (name :: given) record text

/-- Reads the fields of a list from after its bracket, as far as they go. -/
def listFields {ρ : Type} : List (String × (ρ → Reader ρ)) → Bool → ρ → Reader (Bool × ρ)
  | [], first, record, text => .ok ((first, record), text)
  | (_, enter) :: fields, first, record, text => do
    let (more, text) ← nextElement first text
    if !more then return ((first, record), text)
    let (record, text) ← enter record text
    listFields fields false record text

/-- Reads a record. -/
def record {ρ : Type} (limit : Nat) (format : RecordFormat ρ) : Reader ρ := fun text =>
  match skipSpaces text with
  | '\x7b' :: rest => objectFields limit format limit true [] format.vacant rest
  | '[' :: rest => do
    let ((missing, record), rest) ← listFields format.fields true format.vacant rest
    if missing then throw (.tooShort format.title format.fields.length)
    .ok (record, ← endOfList rest)
  | text => .error (unwanted limit (.record format.title) text)

/-- Reads a text that holds one record and nothing else. The reader is given the bound that the
text's length puts on every loop. -/
def document {α : Type} (reader : Nat → Reader α) (text : String) : Except Fault α := do
  let cs := text.toList
  let (value, rest) ← reader (cs.length + 1) cs
  match skipSpaces rest with
  | [] => return value
  | _ => throw .trailingCharacters

end BindingGen.Json
