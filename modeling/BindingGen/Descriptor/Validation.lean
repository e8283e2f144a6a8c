import BindingGen.Descriptor.Basic
import BindingGen.Fault
import BindingGen.Text.Identifier

/-!
What every descriptor must satisfy before anything is generated from it: names are identifiers, and
they differ within their scope. Functions and classes share the scope of their module, methods have
that of their class, where the constructor does not count but must be the only one.
-/

namespace BindingGen

/-- Fails unless a name is an identifier. -/
def checkName (role : NameRole) (name : String) : Except DescriptorFault Unit :=
  if Text.isIdentifier name then .ok () else .error (.badName role name)

/-- Fails if a name has been declared in its scope already. -/
def checkFresh (scope : Scope) (seen : List String) (name : String) :
    Except DescriptorFault Unit :=
  if seen.contains name then .error (.repeatedName scope name) else .ok ()

namespace FunctionDecl

/-- Checks the names of parameters one by one, given those before them. -/
def checkParams (f : FunctionDecl) (seen : List String) :
    List Parameter → Except DescriptorFault Unit
  | [] => .ok ()
  | p :: rest => do
    checkName .parameter p.name
    if seen.contains p.name then throw (.repeatedParameter p.name f.qualifiedName)
    f.checkParams (p.name :: seen) rest

/-- Checks the names of a function and its parameters. -/
def check (f : FunctionDecl) : Except DescriptorFault Unit := do
  checkName .function f.name
  f.checkParams [] f.params

end FunctionDecl

namespace ClassDecl

/-- The methods that have the constructor's name. -/
def constructors (c : ClassDecl) : List FunctionDecl :=
  c.methods.filter (·.name == constructorName)

/-- Checks methods one by one, given the names before them. -/
def checkMethods (c : ClassDecl) (seen : List String) :
    List FunctionDecl → Except DescriptorFault Unit
  | [] => .ok ()
  | f :: rest => do
    f.check
    if f.name == constructorName then c.checkMethods seen rest
    else
      checkFresh (.ofClass c.name) seen f.name
      c.checkMethods (f.name :: seen) rest

/-- Checks a class by itself: the number of its constructors, then its methods. -/
def check (c : ClassDecl) : Except DescriptorFault Unit := do
  if 1 < c.constructors.length then throw (.severalConstructors c.name c.constructors.length)
  c.checkMethods [] c.methods

end ClassDecl

namespace ModuleDecl

/-- Checks functions one by one, given the names before them, and returns all names. -/
def checkFunctions (seen : List String) :
    List FunctionDecl → Except DescriptorFault (List String)
  | [] => .ok seen
  | f :: rest => do
    f.check
    checkFresh .module seen f.name
    checkFunctions (f.name :: seen) rest

/-- Checks classes one by one, given the names before them. -/
def checkClasses (seen : List String) : List ClassDecl → Except DescriptorFault Unit
  | [] => .ok ()
  | c :: rest => do
    checkName .ofClass c.name
    checkFresh .module seen c.name
    c.check
    checkClasses (c.name :: seen) rest

/-- The first thing wrong with a module. -/
def check (m : ModuleDecl) : Except DescriptorFault Unit := do
  checkName .module m.name
  let seen ← checkFunctions [] m.functions
  checkClasses seen m.classes

/-- Checks a module; the fault names it. -/
def validate (m : ModuleDecl) : Except Fault Unit := m.check.mapError (.descriptor m.name)

end ModuleDecl

end BindingGen
