import BindingGen.ArgKind
import BindingGen.Note
import BindingGen.Text.Identifier

/-!
Initializers: the constants that an argument table can hold for a default. A default without such a
constant becomes the null pointer, and a note says so.
-/

namespace BindingGen

/-- What a reference to an interned string starts with. -/
def internMarker : String := "MP_QSTR_"

/-- A reference to an interned string. -/
def interned (name : String) : String := internMarker ++ name

/-- A constant of an argument table. -/
inductive Initializer where
  /-- The null pointer. -/
  | null
  /-- A machine integer. -/
  | int (value : Int)
  /-- A machine truth value. -/
  | bool (value : Bool)
  /-- One of the two truth objects. -/
  | boolObject (value : Bool)
  /-- An integer object. -/
  | intObject (value : Int)
  /-- An interned string. -/
  | stringObject (content : String)
  deriving DecidableEq, Repr

namespace Initializer

/-- The member that a constant sets. -/
def member : Initializer → String
  | null => ".u_obj = MP_OBJ_NULL"
  | int value => ".u_int = " ++ toString value
  | bool true => ".u_bool = true"
  | bool false => ".u_bool = false"
  | boolObject true => ".u_rom_obj = MP_ROM_TRUE"
  | boolObject false => ".u_rom_obj = MP_ROM_FALSE"
  | intObject value => ".u_rom_obj = MP_ROM_INT(" ++ toString value ++ ")"
  | stringObject content => ".u_rom_obj = MP_ROM_QSTR(" ++ interned content ++ ")"

/-- The text of a constant, in braces. -/
def text (init : Initializer) : String := "\x7b " ++ init.member ++ " \x7d"

end Initializer

namespace Literal

/-- The constant that stands for a literal as an argument of a kind. -/
def constant? (value : Literal) (kind : ArgKind) : Option Initializer :=
  match value with
  | .none => some .null
  | .bool b =>
    match kind with
    | .integer => some (.int (if b then 1 else 0))
    | .boolean => some (.bool b)
    | _ => some (.boolObject b)
  | .int n =>
    match kind with
    | .integer => some (.int n)
    | .boolean => some (.bool (n != 0))
    | _ => some (.intObject n)
  | .str content =>
    if kind.isObject && Text.isIdentifier content then some (.stringObject content)
    else Option.none
  | .float _ => Option.none
  | .other _ => Option.none

/-- The constant for a literal, the null pointer where there is none of its own. -/
def initializer (value : Literal) (kind : ArgKind) : Initializer :=
  (value.constant? kind).getD .null

/-- What choosing the constant tells: nothing, unless the default is lost. -/
def initializerNotes (value : Literal) (kind : ArgKind) : List Note :=
  match value.constant? kind with
  | some _ => []
  | Option.none =>
    [⟨.warn, "default " ++ value.text ++ " has no constant " ++ kind.text ++
      " initializer, using MP_OBJ_NULL"⟩]

end Literal

end BindingGen
