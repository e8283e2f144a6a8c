import BindingGen.Descriptor.Basic
import BindingGen.Json.Written

/-!
Descriptors written as JSON. Fields that are not set are left out, and a default is written as the
display text of its literal.
-/

namespace BindingGen

open Json (writtenString writtenBool writtenNat writtenList writtenObject)

/-- The name of a way of passing. -/
def Passing.name : Passing → String
  | .positional => "positional"
  | .keywordOnly => "keyword_only"

/-- A parameter as JSON. -/
def Parameter.json (p : Parameter) : List Char :=
  writtenObject [
    ("name", writtenString p.name),
    ("kind", writtenString p.kind.name),
    ("default", p.default.map fun literal => writtenString literal.text),
    ("annotation", p.typeHint.map writtenString)]

/-- A function or method as JSON. -/
def FunctionDecl.json (f : FunctionDecl) : List Char :=
  writtenObject [
    ("name", writtenString f.name),
    ("owner", f.owner.map writtenString),
    ("params", writtenList (f.params.map (·.json))),
    ("varargs", writtenBool f.varargs),
    ("varkw", writtenBool f.varkw),
    ("doc", f.doc.map writtenString),
    ("returns", f.returns.map writtenString)]

/-- A class as JSON. -/
def ClassDecl.json (c : ClassDecl) : List Char :=
  writtenObject [
    ("name", writtenString c.name),
    ("methods", writtenList (c.methods.map (·.json)))]

/-- A module as JSON. -/
def ModuleDecl.json (m : ModuleDecl) : List Char :=
  writtenObject [
    ("name", writtenString m.name),
    ("author", m.author.map writtenString),
    ("year", m.year.map writtenNat),
    ("functions", writtenList (m.functions.map (·.json))),
    ("classes", writtenList (m.classes.map (·.json)))]

/-- The JSON text of a module. -/
def ModuleDecl.toJson (m : ModuleDecl) : String := String.ofList m.json

/-- The JSON text of a function. -/
def FunctionDecl.toJson (f : FunctionDecl) : String := String.ofList f.json

end BindingGen
