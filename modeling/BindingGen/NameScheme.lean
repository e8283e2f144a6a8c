import BindingGen.Descriptor.Basic
import BindingGen.Text.Upper

/-!
Names of the generated C. Every name that the generated code defines or refers to is made here from
the names of the descriptor, so that a definition and its uses agree.
-/

namespace BindingGen

/-- The names of one module; all but the local ones start with the stem. -/
structure NameScheme where
  stem : String
  deriving DecidableEq, Repr

namespace NameScheme

variable (names : NameScheme)

/-- The entry point of a function or method. -/
def entry (f : FunctionDecl) : String :=
  match f.owner with
  | some owner => names.stem ++ "_" ++ owner ++ "_" ++ f.name
  | none => names.stem ++ "_" ++ f.name

/-- The object that registers a function's entry point. -/
def functionObject (f : FunctionDecl) : String := names.entry f ++ "_obj"

/-- The C parameter of an argument that is passed by itself. -/
def localParam (param : String) : String := param ++ "_in"

/-- The enumerator that numbers an argument. -/
def argSlot (param : String) : String := "ARG_" ++ param

/-- The entry point that makes the instances of a class. -/
def makeNew (className : String) : String := names.stem ++ "_" ++ className ++ "_make_new"

/-- The structure of the instances of a class. -/
def layout (className : String) : String := names.stem ++ "_" ++ className ++ "_obj_t"

/-- The table of a class's methods. -/
def localsTable (className : String) : String :=
  names.stem ++ "_" ++ className ++ "_locals_dict_table"

/-- The dictionary over the table of methods. -/
def localsDict (className : String) : String := names.stem ++ "_" ++ className ++ "_locals_dict"

/-- The type object of a class. -/
def typeObject (className : String) : String := names.stem ++ "_" ++ className ++ "_type"

/-- The table of the module's functions and classes. -/
def globalsTable : String := names.stem ++ "_module_globals_table"

/-- The dictionary over the module's table. -/
def globalsDict : String := names.stem ++ "_module_globals"

/-- The module object. -/
def moduleObject : String := names.stem ++ "_user_cmodule"

/-- The condition under which the module is compiled. -/
def guard : String := "MODULE_" ++ Text.upper names.stem ++ "_ENABLED"

/-- The file of the C source. -/
def sourceFile : String := "mod" ++ names.stem ++ ".c"

/-- The file of the table of interned strings. -/
def symbolFile : String := "qstrdefs" ++ names.stem ++ ".h"

end NameScheme

end BindingGen
