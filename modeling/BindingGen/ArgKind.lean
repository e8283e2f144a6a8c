import BindingGen.Descriptor.Basic
import BindingGen.Fault
import BindingGen.Text.Blank

/-!
Argument kinds: how the native side stores an argument, and which annotation asks for which kind.
The annotations are a closed set; optional types are recognised by their outer form alone.
-/

namespace BindingGen

/-- How the native side stores an argument. -/
inductive ArgKind where
  | integer
  | object
  | boolean
  /-- An object or the null pointer. -/
  | nullable
  deriving DecidableEq, Repr

namespace ArgKind

/-- Whether an argument is stored as an object of the interpreter. -/
def isObject : ArgKind → Bool
  | object => true
  | nullable => true
  | _ => false

/-- The text of a kind. -/
def text : ArgKind → String
  | integer => "int"
  | object => "object"
  | boolean => "bool"
  | nullable => "object or None"

/-- The flag of a kind in an argument table. -/
def flag : ArgKind → String
  | integer => "MP_ARG_INT"
  | object => "MP_ARG_OBJ"
  | boolean => "MP_ARG_BOOL"
  | nullable => "MP_ARG_OBJ"

/-- The text after a start that it must have. -/
def after? (start : String) (cs : List Char) : Option (List Char) :=
  if start.toList.isPrefixOf cs then some (cs.drop start.length) else none

/-- Whether an annotation spells an optional type: by its constructor or as a union with `None`. -/
def isOptional (cs : List Char) : Bool :=
  let bracketed :=
    match after? "typing.Optional[" cs <|> after? "Optional[" cs with
    | some rest => rest.getLast? == some ']'
    | none => false
  bracketed || "| None".toList.isSuffixOf cs

/-- The kind that an annotation without surrounding blanks asks for. -/
def ofTrimmed? (typeHint : String) : Option ArgKind :=
  if typeHint == "int" then some integer
  else if typeHint == "bool" then some boolean
  else if typeHint == "object" || typeHint == "Any" || typeHint == "typing.Any" then
    some object
  else if typeHint == "None" || typeHint == "NoneType" then some nullable
  else if isOptional typeHint.toList then some nullable
  else none

/-- The kind of an argument, or the annotation that asks for none. Without an annotation it is an
object. -/
def ofHint : Option String → Except String ArgKind
  | none => .ok object
  | some typeHint =>
    match ofTrimmed? (Text.trim typeHint) with
    | some kind => .ok kind
    | none => .error (Text.trim typeHint)

/-- The kind of a parameter; the fault names the parameter and its function. -/
def ofParameter (f : FunctionDecl) (p : Parameter) : Except Fault ArgKind :=
  (ofHint p.typeHint).mapError (.unsupportedHint f.qualifiedName p.name)

example : ofTrimmed? "Optional[int]" = some nullable ∧ ofTrimmed? "Optional[int" = none ∧
    ofTrimmed? "Optional[" = none ∧ ofTrimmed? "x| None" = some nullable ∧
    ofTrimmed? "int |  None" = none := by decide +kernel

end ArgKind

end BindingGen
