import BindingGen.Proofs.Confinement
import BindingGen.Proofs.Definition

/-!
# Keys of the maps of a source

A map is looked up by its keys, so a key that stands twice in it hides one of its entries. The
names that become keys are compared when a module is checked: those of functions and classes with
each other, and those of the methods of a class. The map of the module has a row more than it has
functions and classes, for the module's own name, and the key of this row is compared with nothing.

`mapTables` reads the maps off a source. `HoldsMaps part tables` says that a part of a source holds
these maps and leaves none open, so that the maps of a source are those of its parts.

Results:
1. `mapTables_listing`: a source has one map for every class with methods, and one for the module.
2. `keys_nodup_iff`: in an accepted module the keys of the maps of classes always differ, and those
   of all maps differ if and only if nothing in the module is named like the row of its own name.
3. `namesakeModule_not_nodup`: a module with a function of that name is accepted.
-/

namespace BindingGen

/-! ## Maps in a source -/

/-- A map of a source with the keys of its entries. -/
structure MapTable where
  name : String
  keys : List String
  deriving DecidableEq, Repr

/-- The keys of the entries up to the end of a map. -/
def openKeys : List Fragment → List String
  | [] => []
  | .mapClose :: _ => []
  | .mapEntry key _ :: rest => key :: openKeys rest
  | _ :: rest => openKeys rest

/-- The maps of a source in order. -/
def mapTables : List Fragment → List MapTable
  | [] => []
  | .mapOpen name :: rest => ⟨name, openKeys rest⟩ :: mapTables rest
  | _ :: rest => mapTables rest

/-- Whether a fragment opens a map. -/
def Fragment.opensMap : Fragment → Bool
  | mapOpen _ => true
  | _ => false

/-- The key of an entry of a map. -/
def Fragment.mapKey? : Fragment → Option String
  | mapEntry key _ => some key
  | _ => none

/-- Up to the end of a map, the keys are those of its entries. -/
theorem openKeys_of_keyed {entries rest : List Fragment} {keys : List String}
    (keyed : entries.map Fragment.mapKey? = keys.map some) :
    openKeys (entries ++ .mapClose :: rest) = keys := by
  induction entries generalizing keys with
  | nil =>
    cases keys with
    | nil => rfl
    | cons key keys => cases keyed
  | cons entry entries ih =>
    cases keys with
    | nil => cases keyed
    | cons key keys =>
      obtain ⟨first, others⟩ := List.cons.inj keyed
      cases entry with
      | mapEntry =>
        cases first
        exact congrArg (key :: ·) (ih others)
      | _ => cases first

theorem Fragment.opensMap_of_isArgument {fragment : Fragment}
    (argument : fragment.isArgument = true) : fragment.opensMap = false := by
  cases fragment with
  | mapOpen => cases argument
  | _ => rfl

/-- `HoldsMaps part tables`: a part of a source holds these maps, whatever follows it. -/
def HoldsMaps (part : List Fragment) (tables : List MapTable) : Prop :=
  ∀ later, mapTables (part ++ later) = tables ++ mapTables later

namespace HoldsMaps

theorem mapTables_eq {part : List Fragment} {tables : List MapTable}
    (holds : HoldsMaps part tables) : mapTables part = tables :=
  Reads.eq holds rfl

theorem append {a b : List Fragment} {first second : List MapTable} (left : HoldsMaps a first)
    (right : HoldsMaps b second) : HoldsMaps (a ++ b) (first ++ second) :=
  Reads.append left right

theorem flatMap {α : Type} {as : List α} {f : α → List Fragment} {tables : α → List MapTable}
    (each : ∀ a ∈ as, HoldsMaps (f a) (tables a)) :
    HoldsMaps (as.flatMap f) (as.flatMap tables) :=
  Reads.flatMap each

theorem none {part : List Fragment} (plain : ∀ fragment ∈ part, fragment.opensMap = false) :
    HoldsMaps part [] := by
  refine Reads.skip fun fragment member later => ?_
  have other := plain fragment member
  cases fragment with
  | mapOpen => cases other
  | _ => rfl

theorem flatMap_none {α : Type} {as : List α} {f : α → List Fragment}
    (each : ∀ a ∈ as, HoldsMaps (f a) []) : HoldsMaps (as.flatMap f) [] := by
  have tables : (as.flatMap fun _ => ([] : List MapTable)) = [] := by simp
  rw [← tables]
  exact flatMap each

/-- A map has the keys of its entries. -/
theorem mapFragments {table dict : String} {entries : List Fragment} {keys : List String}
    (keyed : entries.map Fragment.mapKey? = keys.map some) :
    HoldsMaps (mapFragments table dict entries) [⟨table, keys⟩] := by
  have plain : ∀ entry ∈ entries, entry.opensMap = false := by
    intro entry member
    have listed : entry.mapKey? ∈ keys.map some := keyed ▸ List.mem_map_of_mem member
    obtain ⟨key, -, same⟩ := List.mem_map.mp listed
    cases entry with
    | mapOpen => cases same
    | _ => rfl
  intro later
  simp only [BindingGen.mapFragments, List.append_assoc, List.cons_append, List.nil_append,
    mapTables, openKeys_of_keyed keyed, none plain _]

end HoldsMaps

/-! ## The maps of a plan -/

namespace FunctionPlan

variable (names : NameScheme) (plan : FunctionPlan)

theorem holdsMaps_unit : HoldsMaps (plan.unitFragments names) [] := by
  refine .none fun fragment member => ?_
  simp only [unitFragments, List.mem_append, List.mem_cons, List.not_mem_nil, or_false] at member
  rcases member with (((rfl | rfl) | argument) | statement) | rfl | rfl | rfl
  · rfl
  · rfl
  · exact Fragment.opensMap_of_isArgument (isArgument_of_mem_argumentFragments argument)
  · rcases mem_statements statement with ⟨-, rfl⟩ | ⟨line, rfl⟩
    · rfl
    · rfl
  · rfl
  · rfl
  · rfl

theorem holdsMaps_maker (className : String) :
    HoldsMaps (plan.makerFragments names className) [] := by
  refine .none fun fragment member => ?_
  simp only [makerFragments, rawPart, List.mem_append, List.mem_cons, List.mem_map,
    List.not_mem_nil, or_false] at member
  rcases member with ((rfl | rfl | rfl | rfl) | ⟨line, -, rfl⟩) | rfl | rfl | rfl
  all_goals rfl

end FunctionPlan

namespace ClassPlan

variable (names : NameScheme) (plan : ClassPlan)

/-- The map of a class, if it has methods. -/
def localsTables : List MapTable :=
  if plan.methods.isEmpty then []
  else [⟨names.localsTable plan.decl.name, plan.methods.map (·.decl.name)⟩]

theorem holdsMaps_localsPart : HoldsMaps (plan.localsPart names) (plan.localsTables names) := by
  unfold localsPart localsTables
  split
  · exact .none nofun
  · refine .mapFragments ?_
    simp [FunctionPlan.mapEntry, Fragment.mapKey?]

/-- Of the parts of a class only the map of its methods is a map. -/
theorem holdsMaps : HoldsMaps (plan.classFragments names) (plan.localsTables names) := by
  have layout : HoldsMaps [.instanceLayout (names.layout plan.decl.name), .blank] [] :=
    .none (by simp [Fragment.opensMap])
  have methods : HoldsMaps (plan.methods.flatMap (·.unitFragments names)) [] :=
    .flatMap_none fun p _ => p.holdsMaps_unit names
  have maker : HoldsMaps (plan.maker.toList.flatMap (·.makerFragments names plan.decl.name)) [] :=
    .flatMap_none fun p _ => p.holdsMaps_maker names plan.decl.name
  have type : HoldsMaps (plan.typePart names) [] := .none (by simp [typePart, Fragment.opensMap])
  have whole := (((layout.append methods).append maker).append
    (plan.holdsMaps_localsPart names)).append type
  rwa [List.append_nil, List.append_nil, List.nil_append] at whole

end ClassPlan

namespace ModulePlan

variable (names : NameScheme) (plan : ModulePlan)

/-- The map of a module: the row of its own name, its functions and its classes. -/
def globalsTable : MapTable :=
  ⟨names.globalsTable, reservedSymbol ::
    (plan.functions.map (·.decl.name) ++ plan.classes.map (·.decl.name))⟩

theorem holdsMaps_ending : HoldsMaps (plan.ending names) [plan.globalsTable names] := by
  have globals : HoldsMaps (plan.globalsPart names) [plan.globalsTable names] := by
    rw [globalEntries_eq]
    refine .mapFragments ?_
    simp [globalEntries, FunctionPlan.mapEntry, ClassPlan.mapEntry, Fragment.mapKey?,
      Function.comp_def]
  have rest : HoldsMaps
      [.moduleDefine names.moduleObject names.globalsDict, .blank,
        .register plan.decl.name names.moduleObject names.guard, .blank, .ifClose names.guard] [] :=
    .none (by simp [Fragment.opensMap])
  exact globals.append rest

/-- The maps of a source are those of the classes with methods, and that of the module. -/
theorem mapTables_listing : mapTables (plan.listing names).fragments =
    plan.classes.flatMap (·.localsTables names) ++ [plan.globalsTable names] := by
  have opening : HoldsMaps (plan.opening names) [] :=
    .none (by simp [ModulePlan.opening, includedFiles, Fragment.opensMap])
  have functions : HoldsMaps (plan.functions.flatMap (·.unitFragments names)) [] :=
    .flatMap_none fun p _ => p.holdsMaps_unit names
  have classes : HoldsMaps (plan.classes.flatMap (·.classFragments names))
      (plan.classes.flatMap (·.localsTables names)) :=
    .flatMap fun c _ => c.holdsMaps names
  have whole := ((opening.append functions).append classes).append (plan.holdsMaps_ending names)
  rw [fragments_listing, whole.mapTables_eq]
  rfl

end ModulePlan

/-! ## Accepted modules -/

/-- A method that is owned is registered unless it has the name of a constructor. -/
theorem ClassDecl.registered_eq_ordinary {c : ClassDecl}
    (owned : ∀ f ∈ c.methods, f.owner = some c.name) : c.registered = c.ordinary := by
  refine List.filter_congr fun f member => ?_
  rw [FunctionDecl.isConstructor, owned f member]
  simp [bne]

namespace ModulePlan

variable {m : ModuleDecl} {plan : ModulePlan}

theorem globalsTable_keys (names : NameScheme) (planned : ofDecl m = .ok plan) :
    (plan.globalsTable names).keys =
      reservedSymbol :: (m.functions.map (·.name) ++ m.classes.map (·.name)) := by
  obtain ⟨-, functions, classes⟩ := ofDecl_eq_ok_iff.mp planned
  rw [← FunctionPlan.map_decl_of_planned functions, ← ClassPlan.map_decl_of_planned classes,
    List.map_map, List.map_map]
  rfl

/-- The keys of a class's map are the names of the methods that were checked against each other. -/
theorem nodup_of_mem_localsTables {names : NameScheme} {c : ClassDecl} {p : ClassPlan}
    {table : MapTable} (owned : ∀ f ∈ c.methods, f.owner = some c.name) (named : c.WellNamed)
    (planned : ClassPlan.ofDecl c = .ok p) (member : table ∈ p.localsTables names) :
    table.keys.Nodup := by
  have methods : p.methods.map (·.decl.name) = c.ordinary.map (·.name) := by
    rw [← ClassDecl.registered_eq_ordinary owned, ← ClassPlan.methods_map_decl planned,
      List.map_map]
    rfl
  unfold ClassPlan.localsTables at member
  split at member
  · cases member
  · obtain rfl := List.mem_singleton.mp member
    show (p.methods.map (·.decl.name)).Nodup
    rw [methods]
    exact named.distinct

/-- In an accepted module the keys of the maps of classes differ, and those of all maps do if and
only if no function and no class is named like the row of the module's own name. -/
theorem keys_nodup_iff (accepted : ofValid m = .ok plan) :
    (∀ table ∈ mapTables (plan.listing ⟨m.name⟩).fragments,
      table.name ≠ NameScheme.globalsTable ⟨m.name⟩ → table.keys.Nodup) ∧
    ((∀ table ∈ mapTables (plan.listing ⟨m.name⟩).fragments, table.keys.Nodup) ↔
      (∀ f ∈ m.functions, f.name ≠ reservedSymbol) ∧
        ∀ c ∈ m.classes, c.name ≠ reservedSymbol) := by
  obtain ⟨valid, planned⟩ := ofValid_eq_ok_iff.mp accepted
  have named := ModuleDecl.wellNamed_of_validate valid
  obtain ⟨-, -, classes⟩ := ofDecl_eq_ok_iff.mp planned
  have locals : ∀ p ∈ plan.classes, ∀ table ∈ p.localsTables ⟨m.name⟩, table.keys.Nodup := by
    intro p inPlan table member
    obtain ⟨found, declared⟩ := ClassPlan.planned_of_mem classes inPlan
    exact nodup_of_mem_localsTables (fun _ => ModuleDecl.owner_of_adopt declared)
      (named.classes p.decl declared) found member
  have globals : (plan.globalsTable ⟨m.name⟩).keys.Nodup ↔
      (∀ f ∈ m.functions, f.name ≠ reservedSymbol) ∧
        ∀ c ∈ m.classes, c.name ≠ reservedSymbol := by
    rw [globalsTable_keys _ planned, List.nodup_cons, and_iff_left named.distinct]
    simp [ModuleDecl.adopt, ClassDecl.adopt, not_or]
  rw [mapTables_listing]
  constructor
  · intro table member other
    rcases List.mem_append.mp member with inClasses | isGlobals
    · obtain ⟨p, inPlan, found⟩ := List.mem_flatMap.mp inClasses
      exact locals p inPlan table found
    · obtain rfl := List.mem_singleton.mp isGlobals
      exact absurd rfl other
  · rw [← globals, List.forall_mem_append, List.forall_mem_singleton]
    refine and_iff_right fun table inClasses => ?_
    obtain ⟨p, inPlan, found⟩ := List.mem_flatMap.mp inClasses
    exact locals p inPlan table found

end ModulePlan

/-! ## Two modules -/

theorem counterModule_keys_nodup :
    ModulePlan.ofValid counterModule = .ok counterPlan ∧
      ∀ table ∈ mapTables (counterPlan.listing ⟨"m"⟩).fragments, table.keys.Nodup := by
  have accepted : ModulePlan.ofValid counterModule = .ok counterPlan := rfl
  exact ⟨accepted, (ModulePlan.keys_nodup_iff accepted).2.mpr ⟨by decide, by decide⟩⟩

/-- A module with a function that is named like the row of the module's own name. -/
def namesakeModule : ModuleDecl := ⟨"m", none, none, [bareFunction "__name__"], []⟩

/-- The plan of `namesakeModule`. -/
def namesakePlan : ModulePlan := ⟨namesakeModule, [⟨bareFunction "__name__", .fixed 0, [], []⟩], []⟩

/-- The module is accepted, but the map of the module has one key twice. -/
theorem namesakeModule_not_nodup :
    ModulePlan.ofValid namesakeModule = .ok namesakePlan ∧
      mapTables (namesakePlan.listing ⟨"m"⟩).fragments =
        [⟨"m_module_globals_table", ["__name__", "__name__"]⟩] ∧
      ¬ ∀ table ∈ mapTables (namesakePlan.listing ⟨"m"⟩).fragments, table.keys.Nodup := by
  have listed : mapTables (namesakePlan.listing ⟨"m"⟩).fragments =
      [⟨"m_module_globals_table", ["__name__", "__name__"]⟩] := rfl
  refine ⟨rfl, listed, ?_⟩
  rw [listed]
  decide

end BindingGen
