import BindingGen.Descriptor.Validation
import BindingGen.Layout
import BindingGen.Listing

/-!
Artifacts: the C source of a module and the table of its interned strings. Both come from one plan,
or there is a fault and neither exists.
-/

namespace BindingGen

/-- The two generated files of a module. -/
structure Artifact where
  sourceFile : String
  source : String
  symbolFile : String
  symbols : String
  table : SymbolTable
  deriving DecidableEq, Repr

/-- The plan of a module whose methods have been adopted and which has been found valid. -/
def ModulePlan.ofValid (m : ModuleDecl) : Except Fault ModulePlan := do
  m.adopt.validate
  ModulePlan.ofDecl m.adopt

namespace Artifact

/-- The artifacts of a planned module. -/
def ofPlan (layout : Layout) (plan : ModulePlan) : Artifact :=
  let names : NameScheme := ⟨plan.decl.name⟩
  let listing := plan.listing names
  { sourceFile := names.sourceFile
    source := layout.render listing.fragments
    symbolFile := names.symbolFile
    symbols := listing.table.render names.guard
    table := listing.table }

/-- The artifacts of a module in a layout. -/
def generateWith (layout : Layout) (m : ModuleDecl) : Except Fault Artifact :=
  (ModulePlan.ofValid m).map (ofPlan layout)

/-- The artifacts of a module in the usual layout. -/
def generate (m : ModuleDecl) : Except Fault Artifact := generateWith .standard m

/-- What generating the artifacts of a planned module tells. -/
def planNotes (plan : ModulePlan) : List Note :=
  let listing := plan.listing ⟨plan.decl.name⟩
  listing.notes ++
    [⟨.info, "Generated " ++ inQuotes plan.decl.name ++ ": " ++
      toString listing.fragments.length ++ " fragments, " ++
      toString listing.table.symbols.size ++ " symbols"⟩]

/-- What generating the artifacts of a module tells. -/
def notes (m : ModuleDecl) : List Note :=
  match m.adopt.validate with
  | .error _ => []
  | .ok () =>
    ModulePlan.notes m.adopt ++
      match ModulePlan.ofDecl m.adopt with
      | .ok plan => planNotes plan
      | .error _ => []

end Artifact

end BindingGen
