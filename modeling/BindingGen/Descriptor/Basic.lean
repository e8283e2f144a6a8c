import BindingGen.Literal

/-!
Descriptors: what a module offers to its callers. A module declares functions and classes, a class
its methods, and a function or method its parameters.
-/

namespace BindingGen

/-- How a parameter may be passed. -/
inductive Passing where
  | positional
  | keywordOnly
  deriving DecidableEq, Repr

/-- A declared parameter. -/
structure Parameter where
  name : String
  kind : Passing
  default : Option Literal
  typeHint : Option String
  deriving DecidableEq, Repr

/-- A declared function or method. The owner of a method is its class. -/
structure FunctionDecl where
  name : String
  owner : Option String
  params : List Parameter
  varargs : Bool
  varkw : Bool
  doc : Option String
  returns : Option String
  deriving DecidableEq, Repr

/-- A declared class. -/
structure ClassDecl where
  name : String
  methods : List FunctionDecl
  deriving DecidableEq, Repr

/-- A declared module. -/
structure ModuleDecl where
  name : String
  author : Option String
  year : Option Nat
  functions : List FunctionDecl
  classes : List ClassDecl
  deriving DecidableEq, Repr

namespace Parameter

/-- Whether the parameter can be passed by name only. -/
def isKeywordOnly (p : Parameter) : Bool := p.kind == .keywordOnly

/-- Whether the parameter may be left out. -/
def hasDefault (p : Parameter) : Bool := p.default.isSome

end Parameter

/-- The name of the method that makes the instances of its class. -/
def constructorName : String := "__init__"

namespace FunctionDecl

/-- Whether the function makes the instances of a class: it has the name and an owner. -/
def isConstructor (f : FunctionDecl) : Bool := f.name == constructorName && f.owner.isSome

/-- The name with the owner's before it. -/
def qualifiedName (f : FunctionDecl) : String :=
  match f.owner with
  | some owner => owner ++ "." ++ f.name
  | none => f.name

/-- The parameters that may be passed by position, in order. -/
def positional (f : FunctionDecl) : List Parameter := f.params.filter (!·.isKeywordOnly)

/-- The positional parameters that may be left out. -/
def defaulted (f : FunctionDecl) : List Parameter := f.positional.filter (·.hasDefault)

/-- The positional parameters that must be passed. -/
def required (f : FunctionDecl) : List Parameter := f.positional.filter (!·.hasDefault)

/-- Whether some parameter can be passed by name only. -/
def hasKeywordOnly (f : FunctionDecl) : Bool := f.params.any (·.isKeywordOnly)

/-- Whether some parameter of either kind may be left out. -/
def hasDefaults (f : FunctionDecl) : Bool := f.params.any (·.hasDefault)

/-- Every positional parameter is required or has a default. -/
theorem length_required_add_length_defaulted (f : FunctionDecl) :
    f.required.length + f.defaulted.length = f.positional.length := by
  unfold required defaulted
  induction f.positional with
  | nil => rfl
  | cons p ps ih => cases h : p.hasDefault <;> simp [h] <;> omega

end FunctionDecl

namespace ClassDecl

/-- The first method that makes instances. -/
def initializer? (c : ClassDecl) : Option FunctionDecl := c.methods.find? (·.isConstructor)

/-- The class with every method owned by it. -/
def adopt (c : ClassDecl) : ClassDecl :=
  { c with methods := c.methods.map fun m => { m with owner := some c.name } }

end ClassDecl

namespace ModuleDecl

/-- The module with every method owned by the class that declares it. Owners of functions of the
module itself are left alone. -/
def adopt (m : ModuleDecl) : ModuleDecl := { m with classes := m.classes.map (·.adopt) }

end ModuleDecl

end BindingGen
