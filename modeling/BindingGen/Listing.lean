import BindingGen.NameScheme
import BindingGen.Plan
import BindingGen.Signature
import BindingGen.Symbol.Table

/-!
Listings: the fragments of a planned module in the order of the file, with the notes that writing
them gives rise to. A unit defines what the tables after it refer to: first the functions, then each
class with its methods, its constructor and its type, last the table of the module.
-/

namespace BindingGen

/-- A step of writing: a fragment or a note. -/
inductive ListingItem where
  | note (note : Note)
  | fragment (fragment : Fragment)
  deriving DecidableEq, Repr

/-- What writing a module comes to. -/
abbrev Listing := List ListingItem

namespace Listing

/-- A listing of fragments without notes. -/
def ofFragments (fragments : List Fragment) : Listing := fragments.map .fragment

/-- A listing of notes. -/
def ofNotes (notes : List Note) : Listing := notes.map .note

/-- The fragments of a listing. -/
def fragments (listing : Listing) : List Fragment :=
  listing.filterMap fun
    | .fragment fragment => some fragment
    | .note _ => none

@[simp] theorem fragments_append (a b : Listing) :
    fragments (a ++ b) = a.fragments ++ b.fragments := by
  simp [fragments]

@[simp] theorem fragments_ofFragments (fragments : List Fragment) :
    (ofFragments fragments).fragments = fragments := by
  induction fragments with
  | nil => rfl
  | cons fragment rest ih => exact congrArg (fragment :: ·) ih

@[simp] theorem fragments_ofNotes (notes : List Note) : (ofNotes notes).fragments = [] := by
  induction notes with
  | nil => rfl
  | cons note rest ih => exact ih

/-- The notes of a listing whose fragments are shown to a collector as they come. -/
def notesFrom : Collector → Listing → List Note
  | _, [] => []
  | collector, .note note :: rest => note :: notesFrom collector rest
  | collector, .fragment fragment :: rest =>
    let after := collector.observe fragment
    collector.notes after ++ notesFrom after rest

/-- The notes of a listing. -/
def notes (listing : Listing) : List Note := notesFrom .empty listing

/-- The symbols that a listing refers to. -/
def table (listing : Listing) : SymbolTable :=
  .ofCollector (listing.fragments.foldl Collector.observe .empty)

end Listing

open Listing (ofFragments ofNotes)

namespace ArgSlot

/-- The row of a slot in the argument table. -/
def row (slot : ArgSlot) : ArgRow where
  name := slot.param.name
  required := !slot.param.hasDefault
  keywordOnly := slot.param.isKeywordOnly
  kind := slot.kind
  initializer := slot.param.default.map fun value => (value.initializer slot.kind).text

/-- The notes of a slot's row: a default that is lost is reported. -/
def notes (slot : ArgSlot) : List Note :=
  match slot.param.default with
  | some value => value.initializerNotes slot.kind
  | none => []

/-- The row of a slot after its notes. -/
def listing (slot : ArgSlot) : Listing := ofNotes slot.notes ++ ofFragments [.argRow slot.row]

end ArgSlot

namespace FunctionPlan

/-- The parameters of the entry point of a function. -/
def entryParams (plan : FunctionPlan) : EntryParams :=
  match plan.shape with
  | .fixed _ => .fixed (plan.args.map fun slot => NameScheme.localParam slot.param.name)
  | .between _ _ => .parsedArray
  | .atLeast _ => .array
  | .keyword _ => .keywordMap

/-- The enumeration of a function's arguments, if it has any. -/
def slotEnum (plan : FunctionPlan) : List Fragment :=
  if plan.args.isEmpty then []
  else [.slotEnum (plan.args.map fun slot => NameScheme.argSlot slot.param.name)]

/-- The table of a function's arguments and the call that checks them, if there are any. -/
def argTable (plan : FunctionPlan) : Listing :=
  if plan.args.isEmpty then []
  else
    ofFragments (plan.slotEnum ++ [.argTableOpen]) ++ plan.args.flatMap (·.listing) ++
      ofFragments [.argTableClose, .argParse plan.shape.takesKeywords]

/-- What the body of a function declares about its arguments. -/
def argPart (plan : FunctionPlan) : Listing :=
  match plan.shape with
  | .fixed _ => []
  | .between _ _ => plan.argTable
  | .atLeast _ => ofFragments (plan.slotEnum)
  | .keyword _ => plan.argTable

/-- The lines of C that the documentation carries. -/
def rawPart (plan : FunctionPlan) : List Fragment := plan.raw.map .raw

/-- The statements of a function: the lines that its documentation carries, or a placeholder. -/
def statements (plan : FunctionPlan) : List Fragment :=
  if plan.raw.isEmpty then [.placeholder plan.decl.qualifiedName] else plan.rawPart

/-- The unit of a function: its signature, its entry point and its registration. -/
def listing (names : NameScheme) (plan : FunctionPlan) : Listing :=
  let entry := names.entry plan.decl
  ofNotes [⟨.debug, "Emitting " ++ inQuotes plan.decl.qualifiedName ++ " as " ++ entry ++ " (" ++
    plan.shape.text ++ ")"⟩] ++
    ofFragments [.comment plan.decl.signature, .entryOpen entry (plan.entryParams)] ++
    plan.argPart ++
    ofFragments (plan.statements ++
      [.blockClose, .functionObject (names.functionObject plan.decl) entry plan.shape, .blank])

/-- The unit of a constructor, which makes an instance of its class. -/
def makerListing (names : NameScheme) (className : String) (plan : FunctionPlan) : Listing :=
  ofNotes [⟨.debug, "Emitting constructor of " ++ inQuotes className ++ " (" ++ plan.shape.text ++
    ")"⟩] ++
    ofFragments (
      [.comment plan.decl.signature, .entryOpen (names.makeNew className) .makeNew,
       .arityCheck plan.shape.min plan.shape.max plan.shape.takesKeywords,
       .allocate (names.layout className)] ++
      plan.rawPart ++
      [.returnValue "MP_OBJ_FROM_PTR(self)", .blockClose, .blank])

/-- The entry of a function in a map. -/
def mapEntry (names : NameScheme) (plan : FunctionPlan) : Fragment :=
  .mapEntry plan.decl.name (.pointer (names.functionObject plan.decl))

end FunctionPlan

/-- A map with its dictionary. -/
def mapFragments (table dict : String) (entries : List Fragment) : List Fragment :=
  [.mapOpen table] ++ entries ++ [.mapClose, .dictDefine dict table, .blank]

namespace ClassPlan

/-- The map of a class's methods, if it has any. -/
def localsPart (names : NameScheme) (plan : ClassPlan) : List Fragment :=
  if plan.methods.isEmpty then []
  else
    mapFragments (names.localsTable plan.decl.name) (names.localsDict plan.decl.name)
      (plan.methods.map (·.mapEntry names))

/-- The type of a class. -/
def typePart (names : NameScheme) (plan : ClassPlan) : List Fragment :=
  [.typeDefine (names.typeObject plan.decl.name) plan.decl.name
    (plan.maker.map fun _ => names.makeNew plan.decl.name)
    (if plan.methods.isEmpty then none else some (names.localsDict plan.decl.name)), .blank]

/-- The unit of a class: its instances, its methods, its constructor, its map and its type. -/
def listing (names : NameScheme) (plan : ClassPlan) : Listing :=
  let makerPart :=
    match plan.maker with
    | some maker => maker.makerListing names plan.decl.name
    | none => []
  ofNotes [⟨.info, "Emitting class " ++ inQuotes plan.decl.name ++ " with " ++
    toString plan.methods.length ++ " methods"⟩] ++
    ofFragments [.instanceLayout (names.layout plan.decl.name), .blank] ++
    plan.methods.flatMap (·.listing names) ++ makerPart ++
    ofFragments (plan.localsPart names ++ plan.typePart names)

/-- The entry of a class in the map of its module. -/
def mapEntry (names : NameScheme) (plan : ClassPlan) : Fragment :=
  .mapEntry plan.decl.name (.pointer (names.typeObject plan.decl.name))

end ClassPlan

namespace ModulePlan

/-- The files that every source includes. -/
def includedFiles : List String := ["py/runtime.h", "py/obj.h"]

/-- What stands before the first unit. -/
def opening (names : NameScheme) (plan : ModulePlan) : List Fragment :=
  [.header plan.decl.name plan.decl.author plan.decl.year, .blank] ++
    includedFiles.map .includeFile ++ [.blank, .ifOpen names.guard, .blank]

/-- The map of a module: its name, its functions and its classes. -/
def globalsPart (names : NameScheme) (plan : ModulePlan) : List Fragment :=
  mapFragments names.globalsTable names.globalsDict
    (.mapEntry reservedSymbol (.string plan.decl.name) ::
      (plan.functions.map (·.mapEntry names) ++ plan.classes.map (·.mapEntry names)))

/-- What stands after the last unit. -/
def ending (names : NameScheme) (plan : ModulePlan) : List Fragment :=
  plan.globalsPart names ++
    [.moduleDefine names.moduleObject names.globalsDict, .blank,
     .register plan.decl.name names.moduleObject names.guard, .blank, .ifClose names.guard]

/-- The whole source of a module. -/
def listing (names : NameScheme) (plan : ModulePlan) : Listing :=
  ofNotes [⟨.info, "Emitting module " ++ inQuotes plan.decl.name ++ ": " ++
    toString plan.functions.length ++ " functions, " ++ toString plan.classes.length ++
    " classes"⟩] ++
    ofFragments (plan.opening names) ++
    plan.functions.flatMap (·.listing names) ++ plan.classes.flatMap (·.listing names) ++
    ofFragments (plan.ending names)

end ModulePlan

end BindingGen
