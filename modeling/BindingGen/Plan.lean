import BindingGen.CallShape
import BindingGen.Initializer
import BindingGen.Text.Line

/-!
Plans pair a descriptor with all that is derived from it: the call shape, the kind of every argument
and the lines of C that the documentation carries. A plan is complete before anything is written.
-/

namespace BindingGen

/-- What introduces a line of C in a documentation text. -/
def rawMarker : List Char := ['@', 'c', ':']

/-- The characters after the first occurrence of a marker. -/
def afterMarker? (marker : List Char) : List Char → Option (List Char)
  | [] => if marker.isEmpty then some [] else none
  | c :: rest =>
    if marker.isPrefixOf (c :: rest) then some ((c :: rest).drop marker.length)
    else afterMarker? marker rest

/-- The lines of C that a documentation text carries, in order: of each line with a marker what
follows the first one, without leading blanks. -/
def rawLines (doc : String) : List String :=
  ((Text.splitLines doc.toList).filterMap (afterMarker? rawMarker)).map fun cs =>
    String.ofList (Text.dropBlanks cs)

/-- A parameter with the kind of its argument. -/
structure ArgSlot where
  param : Parameter
  kind : ArgKind
  deriving DecidableEq, Repr

/-- A function with all that is derived from it. -/
structure FunctionPlan where
  decl : FunctionDecl
  shape : CallShape
  args : List ArgSlot
  raw : List String
  deriving DecidableEq, Repr

/-- A class with the plans of its methods, the constructor apart. -/
structure ClassPlan where
  decl : ClassDecl
  maker : Option FunctionPlan
  methods : List FunctionPlan
  deriving DecidableEq, Repr

/-- A module with the plans of its functions and classes. -/
structure ModulePlan where
  decl : ModuleDecl
  functions : List FunctionPlan
  classes : List ClassPlan
  deriving DecidableEq, Repr

namespace FunctionPlan

/-- The slot of a parameter. -/
def slot (f : FunctionDecl) (p : Parameter) : Except Fault ArgSlot := do
  return ⟨p, ← ArgKind.ofParameter f p⟩

/-- The plan of a function: its shape first, then its slots in order. -/
def ofDecl (f : FunctionDecl) : Except Fault FunctionPlan := do
  let shape ← f.callShape
  let args ← f.params.mapM (slot f)
  return ⟨f, shape, args, (f.doc.map rawLines).getD []⟩

/-- What a finished plan tells. -/
def note (plan : FunctionPlan) : Note :=
  ⟨.debug, inQuotes plan.decl.qualifiedName ++ " -> " ++ plan.shape.text ++ " (" ++
    toString plan.args.length ++ " params, " ++ toString plan.raw.length ++ " raw lines)"⟩

/-- What planning a function tells. -/
def notes (f : FunctionDecl) : List Note :=
  f.shapeNote ::
    match ofDecl f with
    | .ok plan => [plan.note]
    | .error _ => []

end FunctionPlan

namespace ClassPlan

/-- The plan of a class. Of several constructors the last one counts. -/
def ofDecl (c : ClassDecl) : Except Fault ClassPlan := do
  let plans ← c.methods.mapM FunctionPlan.ofDecl
  return {
    decl := c
    maker := (plans.filter (·.decl.isConstructor)).getLast?
    methods := plans.filter (!·.decl.isConstructor) }

/-- What planning a class tells. -/
def notes (c : ClassDecl) : List Note :=
  Note.untilFailure FunctionPlan.ofDecl FunctionPlan.notes c.methods

end ClassPlan

namespace ModulePlan

/-- The plan of a module: its functions in order, then its classes in order. -/
def ofDecl (m : ModuleDecl) : Except Fault ModulePlan := do
  let functions ← m.functions.mapM FunctionPlan.ofDecl
  let classes ← m.classes.mapM ClassPlan.ofDecl
  return ⟨m, functions, classes⟩

/-- What planning a module tells. -/
def notes (m : ModuleDecl) : List Note :=
  Note.untilFailure FunctionPlan.ofDecl FunctionPlan.notes m.functions ++
    match m.functions.mapM FunctionPlan.ofDecl with
    | .ok _ => Note.untilFailure ClassPlan.ofDecl ClassPlan.notes m.classes
    | .error _ => []

end ModulePlan

example : rawLines "a\n  @c: x = 1;\r\n@c:y@c:z\nnone" = ["x = 1;", "y@c:z"] := by decide +kernel

end BindingGen
