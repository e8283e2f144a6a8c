import BindingGen.Json.Skip

/-!
Readers of values of one wanted type: strings, truth values, unsigned numbers of 32 bits, optional
values, lists and named variants. A value of another type is a fault that shows what was found;
lists and objects are shown by their kind alone, without reading into them.
-/

namespace BindingGen.Json

/-- Reads a value that is not of the wanted type, for the fault that shows it. -/
def unwanted (limit : Nat) (wanted : Wanted) (text : List Char) : Fault :=
  let shown {α : Type} (found : α → Found) : Except Fault α → Fault
    | .ok value => .wrongType (found value) wanted
    | .error fault => fault
  match text with
  | [] => .ended .value
  | 'n' :: rest => shown (fun _ => .null) (word nullTail rest)
  | 't' :: rest => shown (fun _ => .boolean true) (word trueTail rest)
  | 'f' :: rest => shown (fun _ => .boolean false) (word falseTail rest)
  | '"' :: rest => shown (fun (value, _) => .string value) (string limit rest)
  | '[' :: _ => .wrongType .list wanted
  | '\x7b' :: _ => .wrongType .object wanted
  | c :: _ =>
    if c == '-' || c.isDigit then shown (fun (value, _) => value.found) (Number.read text)
    else .expectedValue

/-- Reads a string value. -/
def stringValue (limit : Nat) (wanted : Wanted) : Reader String := fun text =>
  match skipSpaces text with
  | '"' :: rest => string limit rest
  | text => .error (unwanted limit wanted text)

/-- Reads a truth value. -/
def boolean (limit : Nat) : Reader Bool := fun text =>
  match skipSpaces text with
  | 't' :: rest => (word trueTail rest).map (true, ·)
  | 'f' :: rest => (word falseTail rest).map (false, ·)
  | text => .error (unwanted limit .boolean text)

/-- Reads a number of 32 bits without a sign. -/
def unsigned32 (limit : Nat) : Reader Nat := fun text =>
  let text := skipSpaces text
  match text with
  | c :: _ =>
    if c == '-' || c.isDigit then
      match Number.read text with
      | .error fault => .error fault
      | .ok (.real value, _) => .error (.wrongType (.real value) .unsigned)
      | .ok (.integer value, rest) =>
        if 0 ≤ value ∧ value < (Nat.pow 2 32 : Nat) then .ok (value.toNat, rest) else .error (.outOfRange value)
    else .error (unwanted limit .unsigned text)
  | [] => .error (.ended .value)

/-- Reads a value or `null`, which stands for none. -/
def optional {α : Type} (reader : Reader α) : Reader (Option α) := fun text =>
  match skipSpaces text with
  | 'n' :: rest => (word nullTail rest).map (none, ·)
  | text => (reader.map some) text

/-- The text at the next element of a list, or after its closer. `first` says that no element has
been read yet, so that no comma is due. -/
def nextElement (first : Bool) (text : List Char) : Except Fault (Bool × List Char) :=
  match skipSpaces text with
  | [] => .error (.ended .list)
  | ']' :: rest => .ok (false, ']' :: rest)
  | c :: rest =>
    if first then .ok (true, c :: rest)
    else if c == ',' then
      match skipSpaces rest with
      | [] => .error (.ended .value)
      | ']' :: _ => .error .trailingComma
      | text => .ok (true, text)
    else .error .expectedCommaOrBracket

/-- The text after the closer of a list whose elements have all been read. -/
def endOfList (text : List Char) : Except Fault (List Char) :=
  match skipSpaces text with
  | [] => .error (.ended .list)
  | ']' :: rest => .ok rest
  | ',' :: rest =>
    match skipSpaces rest with
    | ']' :: _ => .error .trailingComma
    | _ => .error .trailingCharacters
  | _ => .error .trailingCharacters

/-- Reads the elements of a list from after its bracket, given those before in reverse. -/
def elements {α : Type} (element : Reader α) : Nat → List α → Reader (List α)
  | 0, _, _ => .error (.ended .list)
  | steps + 1, before, text =>
    match nextElement before.isEmpty text with
    | .error fault => .error fault
    | .ok (false, text) => (endOfList text).map (before.reverse, ·)
    | .ok (true, text) =>
      match element text with
      | .error fault => .error fault
      | .ok (value, rest) => elements element steps (value :: before) rest

/-- Reads a list. -/
def list {α : Type} (limit : Nat) (element : Reader α) : Reader (List α) := fun text =>
  match skipSpaces text with
  | '[' :: rest => elements element limit [] rest
  | text => .error (unwanted limit .list text)

/-- The variant that a name stands for. -/
def variantNamed {α : Type} (variants : List (String × α)) (name : String) : Except Fault α :=
  match variants.lookup name with
  | some value => .ok value
  | none => .error (.unknownVariant name (variants.map Prod.fst))

/-- Reads a variant: its name, or an object whose one field has that name and is `null`. -/
def variant {α : Type} (limit : Nat) (variants : List (String × α)) : Reader α := fun text =>
  match skipSpaces text with
  | [] => .error (.ended .value)
  | '"' :: rest => do
    let (name, rest) ← string limit rest
    .ok (← variantNamed variants name, rest)
  | '\x7b' :: rest => do
    let (name, rest) ← stringValue limit .variant rest
    let value ← variantNamed variants name
    match skipSpaces rest with
    | [] => throw (.ended .object)
    | ':' :: rest =>
      match skipSpaces rest with
      | 'n' :: rest =>
        match skipSpaces (← word nullTail rest) with
        | [] => throw (.ended .object)
        | '\x7d' :: rest => return (value, rest)
        | _ => throw .expectedValue
      | text => throw (unwanted limit .unit text)
    | _ => throw .expectedColon
  | _ => .error .expectedValue

end BindingGen.Json
