import BindingGen.Descriptor.Basic
import BindingGen.Json.Record

/-!
Descriptors read from JSON. Each is a record whose name is required; a default is given as the text
of a literal, and `null` stands for a text, a year or an owner that is not given.
-/

namespace BindingGen

open Json (Reader RecordFormat)

/-- Enters a value that was read into a record. -/
def Json.Reader.into {α ρ : Type} (reader : Reader α) (enter : ρ → α → ρ) (record : ρ) :
    Reader ρ :=
  reader.map (enter record)

/-- The names of the two ways of passing. -/
def Passing.names : List (String × Passing) :=
  [("positional", .positional), ("keyword_only", .keywordOnly)]

/-- The record of a parameter. -/
def Parameter.format (limit : Nat) : RecordFormat Parameter where
  title := "ParameterDescriptor"
  vacant := ⟨"", .positional, none, none⟩
  fields :=
    let text := Json.stringValue limit .string
    [("name", text.into fun p name => { p with name := name }),
     ("kind", (Json.variant limit Passing.names).into fun p kind => { p with kind := kind }),
     ("default", (Json.optional text).into fun p default =>
        { p with default := default.map Literal.ofText }),
     ("annotation", (Json.optional text).into fun p typeHint =>
        { p with typeHint := typeHint })]

/-- The record of a function or method. -/
def FunctionDecl.format (limit : Nat) : RecordFormat FunctionDecl where
  title := "FunctionDescriptor"
  vacant := ⟨"", none, [], false, false, none, none⟩
  fields :=
    let text := Json.stringValue limit .string
    let flag := Json.boolean limit
    let parameters := Json.list limit (Json.record limit (Parameter.format limit))
    [("name", text.into fun f name => { f with name := name }),
     ("owner", (Json.optional text).into fun f owner => { f with owner := owner }),
     ("params", parameters.into fun f params => { f with params := params }),
     ("varargs", flag.into fun f varargs => { f with varargs := varargs }),
     ("varkw", flag.into fun f varkw => { f with varkw := varkw }),
     ("doc", (Json.optional text).into fun f doc => { f with doc := doc }),
     ("returns", (Json.optional text).into fun f returns => { f with returns := returns })]

/-- The record of a class. -/
def ClassDecl.format (limit : Nat) : RecordFormat ClassDecl where
  title := "ClassDescriptor"
  vacant := ⟨"", []⟩
  fields :=
    let methods := Json.list limit (Json.record limit (FunctionDecl.format limit))
    [("name", (Json.stringValue limit .string).into fun c name => { c with name := name }),
     ("methods", methods.into fun c methods => { c with methods := methods })]

/-- The record of a module. -/
def ModuleDecl.format (limit : Nat) : RecordFormat ModuleDecl where
  title := "ModuleDescriptor"
  vacant := ⟨"", none, none, [], []⟩
  fields :=
    let text := Json.stringValue limit .string
    let functions := Json.list limit (Json.record limit (FunctionDecl.format limit))
    let classes := Json.list limit (Json.record limit (ClassDecl.format limit))
    [("name", text.into fun m name => { m with name := name }),
     ("author", (Json.optional text).into fun m author => { m with author := author }),
     ("year", (Json.optional (Json.unsigned32 limit)).into fun m year => { m with year := year }),
     ("functions", functions.into fun m functions => { m with functions := functions }),
     ("classes", classes.into fun m classes => { m with classes := classes })]

/-- The module that a JSON text describes. -/
def ModuleDecl.ofJson (text : String) : Except Json.Fault ModuleDecl :=
  Json.document (fun limit => Json.record limit (ModuleDecl.format limit)) text

/-- The function that a JSON text describes. -/
def FunctionDecl.ofJson (text : String) : Except Json.Fault FunctionDecl :=
  Json.document (fun limit => Json.record limit (FunctionDecl.format limit)) text

example : (ModuleDecl.ofJson "[\"m\",null,2024]").toOption = some ⟨"m", none, some 2024, [], []⟩ := by
  decide +kernel
example : (ModuleDecl.ofJson "\x7b\"year\":-1\x7d" matches .error (.outOfRange (-1))) = true := by
  decide +kernel
example : (ModuleDecl.ofJson "\x7b\"x\":[\x7b\"a\":1\x7d,[]]\x7d" matches
    .error (.missingField "name")) = true := by decide +kernel

end BindingGen
