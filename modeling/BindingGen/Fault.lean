import BindingGen.Files.Fault
import BindingGen.Json.Fault

/-!
Why no binding is generated. Every fault is final for its run: both artifacts are produced or
neither is.
-/

namespace BindingGen

/-- Why no call shape fits a signature. -/
inductive ShapeFault where
  /-- Extra arguments of both kinds together with a default. -/
  | extrasWithDefaults
  /-- A constructor that no receiver can be passed to. -/
  | noReceiver
  deriving DecidableEq, Repr

/-- What a name in a descriptor names. -/
inductive NameRole where
  | module
  | function
  | parameter
  | ofClass
  deriving DecidableEq, Repr

/-- Where names have to differ. -/
inductive Scope where
  | module
  | ofClass (name : String)
  deriving DecidableEq, Repr

/-- Why a descriptor cannot be used. -/
inductive DescriptorFault where
  | unreadable (path : String) (fault : Files.ReadFault)
  | malformed (fault : Json.Fault)
  | otherModule (declared : String)
  | badName (role : NameRole) (name : String)
  | repeatedParameter (name : String) (qualifiedName : String)
  | repeatedName (scope : Scope) (name : String)
  | severalConstructors (className : String) (count : Nat)
  deriving DecidableEq, Repr

/-- Why a run fails. -/
inductive Fault where
  | unsupportedShape (qualifiedName : String) (reason : ShapeFault)
  | unsupportedHint (qualifiedName : String) (parameter : String) (typeHint : String)
  | descriptor (module : String) (reason : DescriptorFault)
  | file (reason : Files.Fault)
  deriving DecidableEq, Repr

/-- The text of a shape fault. -/
def ShapeFault.message : ShapeFault → String
  | .extrasWithDefaults => "*args, **kwargs and default values cannot be combined"
  | .noReceiver => "constructor must declare a required receiver parameter"

/-- How a message calls a name. -/
def NameRole.text : NameRole → String
  | .module => "module name"
  | .function => "function name"
  | .parameter => "parameter name"
  | .ofClass => "class name"

/-- A text between single quotes. -/
def inQuotes (s : String) : String := "'" ++ s ++ "'"

/-- How a message calls a scope. -/
def Scope.text : Scope → String
  | .module => "module"
  | .ofClass name => "class " ++ inQuotes name

/-- The text of a descriptor fault. -/
def DescriptorFault.message : DescriptorFault → String
  | .unreadable path fault => "cannot read " ++ path ++ ": " ++ fault.message
  | .malformed fault => "invalid descriptor: " ++ fault.message
  | .otherModule declared => "descriptor declares module " ++ inQuotes declared
  | .badName role name => role.text ++ " " ++ inQuotes name ++ " is not a valid C identifier"
  | .repeatedParameter name qualifiedName =>
    "duplicate parameter " ++ inQuotes name ++ " in " ++ inQuotes qualifiedName
  | .repeatedName scope name =>
    scope.text ++ " declares " ++ inQuotes name ++ " more than once"
  | .severalConstructors className count =>
    "class " ++ inQuotes className ++ " declares " ++ toString count ++ " constructors"

/-- The text of a fault. -/
def Fault.message : Fault → String
  | .unsupportedShape qualifiedName reason =>
    "Unsupported signature shape for " ++ inQuotes qualifiedName ++ ": " ++ reason.message
  | .unsupportedHint qualifiedName parameter typeHint =>
    "Unsupported annotation " ++ inQuotes typeHint ++ " on parameter " ++ inQuotes parameter ++
      " of " ++ inQuotes qualifiedName ++
      " (expected int, bool, object, Any or an optional type)"
  | .descriptor module reason =>
    "Failed to load descriptor for module " ++ inQuotes module ++ ": " ++ reason.message
  | .file reason => "IO error: " ++ reason.message

end BindingGen
