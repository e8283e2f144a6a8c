import BindingGen.Descriptor.Basic

/-!
Building a module step by step. Appending a method to a class stamps its owner; renaming a class
leaves the owners of its methods behind until the module adopts them again.
-/

namespace BindingGen

namespace ClassDecl

/-- The class without any method. -/
def empty (name : String) : ClassDecl := ⟨name, []⟩

/-- Appends a method owned by the class. -/
def addMethod (c : ClassDecl) (f : FunctionDecl) : ClassDecl :=
  { c with methods := c.methods ++ [{ f with owner := some c.name }] }

/-- Appends a method with the owner it has. -/
def pushMethod (c : ClassDecl) (f : FunctionDecl) : ClassDecl :=
  { c with methods := c.methods ++ [f] }

/-- The class of a name with methods that it owns. -/
def ofMethods (name : String) (methods : List FunctionDecl) : ClassDecl :=
  methods.foldl addMethod (empty name)

end ClassDecl

/-- A step of building a module. Classes are counted from zero. -/
inductive Edit where
  | credit (author : String) (year : Nat)
  | addFunction (f : FunctionDecl)
  | addClass (name : String) (methods : List FunctionDecl)
  | pushMethod (index : Nat) (f : FunctionDecl)
  | renameClass (index : Nat) (name : String)
  | renameModule (name : String)
  | adopt
  deriving DecidableEq, Repr

namespace ModuleDecl

/-- The module without any function or class. -/
def empty (name : String) : ModuleDecl := ⟨name, none, none, [], []⟩

/-- The module after a step. -/
def edit (m : ModuleDecl) : Edit → ModuleDecl
  | .credit author year => { m with author := some author, year := some year }
  | .addFunction f => { m with functions := m.functions ++ [f] }
  | .addClass name methods => { m with classes := m.classes ++ [.ofMethods name methods] }
  | .pushMethod index f => { m with classes := m.classes.modify index (·.pushMethod f) }
  | .renameClass index name =>
    { m with classes := m.classes.modify index fun c => { c with name := name } }
  | .renameModule name => { m with name := name }
  | .adopt => m.adopt

end ModuleDecl

end BindingGen
