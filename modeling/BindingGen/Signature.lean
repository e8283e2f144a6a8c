import BindingGen.Descriptor.Basic

/-!
Signatures as a caller in Python sees them. The items between the parentheses are the parameters
with at most one star among them, before the first parameter that is passed by name only, and the
double star last.
-/

namespace BindingGen

namespace Parameter

/-- A parameter in a signature. With an annotation there are blanks around the default's sign. -/
def signatureItem (p : Parameter) : String :=
  let typeHint :=
    match p.typeHint with
    | some typeHint => ": " ++ typeHint
    | none => ""
  let default :=
    match p.default with
    | some value => (if p.typeHint.isSome then " = " else "=") ++ value.text
    | none => ""
  p.name ++ typeHint ++ default

end Parameter

namespace FunctionDecl

/-- The star of a signature: it gathers extra arguments or merely ends the positional ones. -/
def star (f : FunctionDecl) : String := if f.varargs then "*args" else "*"

/-- The parameters of a signature, with the star where it falls due. -/
def starredItems (f : FunctionDecl) : List Parameter → List String
  | [] => if f.varargs then [f.star] else []
  | p :: rest =>
    if p.isKeywordOnly then f.star :: p.signatureItem :: rest.map (·.signatureItem)
    else p.signatureItem :: f.starredItems rest

/-- The items between the parentheses. -/
def signatureItems (f : FunctionDecl) : List String :=
  f.starredItems f.params ++ if f.varkw then ["**kwargs"] else []

/-- The signature of a function as a declaration. -/
def signature (f : FunctionDecl) : String :=
  "def " ++ f.name ++ "(" ++ ", ".intercalate f.signatureItems ++ ")" ++
    match f.returns with
    | some typeHint => " -> " ++ typeHint
    | none => ""

end FunctionDecl

end BindingGen
