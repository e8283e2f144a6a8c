import BindingGen.Proofs.Constructor
import BindingGen.Proofs.NameScheme
import BindingGen.Proofs.Reference
import Mathlib.Data.List.Nodup
import Mathlib.Data.List.Perm.Basic

/-!
# Names at file scope

The names of a source are put together from a few pieces, and several of them stand at file scope:
entry points and the objects that register them, and the artefacts of classes and of the module.
Behind the stem of the module, the entry point of a function has the name of the function, joined to
that of its owner; every other name is made from one that is declared by an ending of its own.

No such ending is the end of another one, so a derived name tells its ending and what it is derived
from, and derived names differ where the declared ones do. What a function is named is up to its
descriptor, however: a valid module may hold two functions with one joined name, or a function whose
joined name is derived from another.

Results:
1. `DerivedName.text_injective`: a derived name tells what it is derived from.
2. `ModulePlan.definitions_perm`: what the source of a valid module defines, by kinds.
3. `ModulePlan.definitions_nodup_iff`: these names differ if and only if the joined names of
   functions differ from each other and from all derived names; `clashModule_not_nodup` is a valid
   module where they do not.
-/

namespace BindingGen

open scoped List

/-! ## Definitions -/

/-- The name that a fragment defines at file scope. -/
def Fragment.definition? : Fragment → Option String
  | entryOpen name _ => some name
  | functionObject object _ _ => some object
  | instanceLayout name => some name
  | mapOpen name => some name
  | dictDefine name _ => some name
  | typeDefine name _ _ _ => some name
  | moduleDefine name _ => some name
  | _ => none

/-- The names that fragments define at file scope, in order. -/
def definitions (fragments : List Fragment) : List String :=
  fragments.filterMap Fragment.definition?

theorem definitions_append (a b : List Fragment) :
    definitions (a ++ b) = definitions a ++ definitions b := List.filterMap_append

theorem definitions_flatMap {α : Type} (as : List α) (f : α → List Fragment) :
    definitions (as.flatMap f) = as.flatMap fun a => definitions (f a) := List.filterMap_flatMap

theorem definitions_eq_nil {part : List Fragment}
    (plain : ∀ fragment ∈ part, fragment.definition? = none) : definitions part = [] :=
  List.filterMap_eq_nil_iff.mpr plain

/-! ## Derived names -/

/-- A name that is made from another by an ending of its own. -/
structure DerivedName where
  base : String
  ending : String
  deriving DecidableEq, Repr

namespace DerivedName

/-- The text of a derived name. -/
def text (name : DerivedName) : String := name.base ++ name.ending

/-- The ending of the object that registers a function. -/
def objectEnding : String := "_obj"

/-- The endings of what belongs to a class. -/
def classEndings : List String :=
  ["_obj_t", "_make_new", "_locals_dict_table", "_locals_dict", "_type"]

/-- The endings of what belongs to a module; they follow its stem. -/
def moduleEndings : List String := ["module_globals_table", "module_globals", "user_cmodule"]

/-- All endings of derived names. -/
def endings : List String := objectEnding :: (classEndings ++ moduleEndings)

/-- No ending is the end of another one. -/
theorem eq_of_suffix : ∀ a ∈ endings, ∀ b ∈ endings, a.toList <:+ b.toList → a = b := by
  decide

/-- A derived name tells its ending and what it is derived from. -/
theorem text_injective {a b : DerivedName} (first : a.ending ∈ endings)
    (second : b.ending ∈ endings) (same : a.text = b.text) : a = b := by
  have chars : a.base.toList ++ a.ending.toList = b.base.toList ++ b.ending.toList := by
    rw [← String.toList_append, ← String.toList_append]
    exact congrArg String.toList same
  -- Both endings end one text, so that the shorter ends the longer.
  have ending : a.ending = b.ending := by
    rcases List.suffix_or_suffix_of_suffix (List.suffix_append a.base.toList _)
      (chars ▸ List.suffix_append b.base.toList _) with shorter | shorter
    · exact eq_of_suffix _ first _ second shorter
    · exact (eq_of_suffix _ second _ first shorter).symm
  obtain ⟨base, tail⟩ := a
  obtain ⟨otherBase, otherTail⟩ := b
  cases ending
  exact congrArg (DerivedName.mk · tail) ((String.append_left_inj tail).mp same)

end DerivedName

/-! ## Declared names -/

/-- The object that registers a function. -/
def FunctionDecl.object (f : FunctionDecl) : DerivedName := ⟨f.joinedName, DerivedName.objectEnding⟩

namespace ClassDecl

/-- The endings of what the source holds of a class: the instances and the type always, the
constructor and the map of methods where there are any. -/
def endings (c : ClassDecl) : List String :=
  ["_obj_t"] ++ (if c.methods.any (·.isConstructor) then ["_make_new"] else []) ++
    (if c.registered.isEmpty then [] else ["_locals_dict_table", "_locals_dict"]) ++ ["_type"]

/-- What the source holds of a class besides its methods. -/
def artefacts (c : ClassDecl) : List DerivedName := c.endings.map (DerivedName.mk c.name)

end ClassDecl

namespace ModuleDecl

/-- The functions of a module that are written by themselves. -/
def registered (m : ModuleDecl) : List FunctionDecl :=
  m.functions ++ m.classes.flatMap (·.registered)

/-- The derived names of a module that do not depend on its functions. Those of the module itself
follow the stem at once. -/
def artefacts (m : ModuleDecl) : List DerivedName :=
  m.classes.flatMap (·.artefacts) ++ DerivedName.moduleEndings.map (DerivedName.mk "")

/-- All derived names of a module. -/
def derived (m : ModuleDecl) : List DerivedName := m.registered.map (·.object) ++ m.artefacts

/-- The joined names of the functions of a module differ from each other and from all derived
names. -/
structure NamesApart (m : ModuleDecl) : Prop where
  distinct : (m.registered.map (·.joinedName)).Nodup
  underived : ∀ f ∈ m.registered, ∀ name ∈ m.derived, f.joinedName ≠ name.text

end ModuleDecl

namespace ClassDecl

theorem endings_sublist (c : ClassDecl) : c.endings.Sublist DerivedName.classEndings := by
  unfold endings
  split
  · split
    · decide
    · decide
  · split
    · decide
    · decide

theorem nodup_artefacts (c : ClassDecl) : c.artefacts.Nodup := by
  refine (c.endings_sublist.nodup (by decide)).map ?_
  rintro a b ⟨⟩
  rfl

theorem of_mem_artefacts {c : ClassDecl} {name : DerivedName} (member : name ∈ c.artefacts) :
    name.base = c.name ∧ name.ending ∈ DerivedName.classEndings := by
  obtain ⟨ending, held, rfl⟩ := List.mem_map.mp member
  exact ⟨rfl, c.endings_sublist.subset held⟩

end ClassDecl

namespace ModuleDecl

variable {m : ModuleDecl}

theorem ending_of_mem_artefacts {name : DerivedName} (member : name ∈ m.artefacts) :
    name.ending ∈ DerivedName.classEndings ++ DerivedName.moduleEndings := by
  rcases List.mem_append.mp member with inClass | inModule
  · obtain ⟨c, -, held⟩ := List.mem_flatMap.mp inClass
    exact List.mem_append_left _ (ClassDecl.of_mem_artefacts held).2
  · obtain ⟨ending, held, rfl⟩ := List.mem_map.mp inModule
    exact List.mem_append_right _ held

theorem ending_of_mem_derived {name : DerivedName} (member : name ∈ m.derived) :
    name.ending ∈ DerivedName.endings := by
  rcases List.mem_append.mp member with object | artefact
  · obtain ⟨f, -, rfl⟩ := List.mem_map.mp object
    exact List.mem_cons_self
  · exact List.mem_cons_of_mem _ (ending_of_mem_artefacts artefact)

/-- Classes differ by name, so what belongs to them does, and it differs from what belongs to the
module. -/
theorem nodup_artefacts (distinct : (m.classes.map (·.name)).Nodup) : m.artefacts.Nodup := by
  have apart : m.classes.Pairwise fun c d => c.name ≠ d.name := List.pairwise_map.mp distinct
  -- The artefacts of two classes have different bases, those of the module other endings.
  refine List.nodup_append.mpr ⟨List.nodup_flatMap.mpr ⟨fun c _ => c.nodup_artefacts, ?_⟩, ?_, ?_⟩
  · refine apart.imp fun {c d} different name ofFirst ofSecond => different ?_
    rw [← (ClassDecl.of_mem_artefacts ofFirst).1, (ClassDecl.of_mem_artefacts ofSecond).1]
  · decide
  · rintro name inClass _ inModule rfl
    obtain ⟨c, -, held⟩ := List.mem_flatMap.mp inClass
    obtain ⟨ending, ofModule, rfl⟩ := List.mem_map.mp inModule
    have ofClass := (ClassDecl.of_mem_artefacts held).2
    have disjoint : ∀ a ∈ DerivedName.classEndings, a ∉ DerivedName.moduleEndings := by decide
    exact disjoint ending ofClass ofModule

/-- Objects differ where the joined names of functions do. -/
theorem nodup_derived (distinct : (m.classes.map (·.name)).Nodup)
    (joined : (m.registered.map (·.joinedName)).Nodup) : m.derived.Nodup := by
  refine List.nodup_append.mpr ⟨?_, nodup_artefacts distinct, ?_⟩
  · have objects : m.registered.map (·.object) =
        (m.registered.map (·.joinedName)).map fun name => ⟨name, DerivedName.objectEnding⟩ := by
      rw [List.map_map]
      rfl
    rw [objects]
    refine joined.map ?_
    rintro a b ⟨⟩
    rfl
  · rintro name object _ artefact rfl
    obtain ⟨f, -, rfl⟩ := List.mem_map.mp object
    have apart : DerivedName.objectEnding ∉
      DerivedName.classEndings ++ DerivedName.moduleEndings := by decide
    exact apart (ending_of_mem_artefacts artefact)

/-- What the source of a module defines at file scope, behind its stem: the joined names of its
functions, then all derived names. -/
def defined (m : ModuleDecl) : List String :=
  m.registered.map (·.joinedName) ++ m.derived.map (·.text)

/-- Only the joined names of functions can collide. -/
theorem nodup_defined_iff (distinct : (m.classes.map (·.name)).Nodup) :
    m.defined.Nodup ↔ m.NamesApart := by
  rw [defined, List.nodup_append, List.forall_mem_map]
  simp only [List.forall_mem_map]
  constructor
  · rintro ⟨joined, -, underived⟩
    exact ⟨joined, underived⟩
  · rintro ⟨joined, underived⟩
    refine ⟨joined, (nodup_derived distinct joined).map_on fun a first b second same => ?_,
      underived⟩
    exact DerivedName.text_injective (ending_of_mem_derived first) (ending_of_mem_derived second)
      same

end ModuleDecl

/-! ## What a source defines -/

/-- What the unit of a function defines, behind the stem. -/
def FunctionDecl.defined (f : FunctionDecl) : List String := [f.joinedName, f.object.text]

/-- What the source holds of a class, behind the stem. -/
def ClassDecl.defined (c : ClassDecl) : List String :=
  c.registered.flatMap (·.defined) ++ c.artefacts.map (·.text)

theorem NameScheme.joined_object (names : NameScheme) (f : FunctionDecl) :
    names.joined f.object.text = names.functionObject f := by
  rw [DerivedName.text, joined_append]
  exact congrArg (· ++ "_obj") (joined_entry f)

namespace FunctionPlan

variable (names : NameScheme) (plan : FunctionPlan)

theorem definitions_unit :
    definitions (plan.unitFragments names) = plan.decl.defined.map names.joined := by
  have arguments : definitions plan.argumentFragments = [] := by
    refine definitions_eq_nil fun fragment member => ?_
    rcases mem_argumentFragments member with rfl | rfl | ⟨_, _, rfl⟩ | rfl | ⟨_, rfl⟩
    all_goals rfl
  have statements : definitions plan.statements = [] := by
    refine definitions_eq_nil fun fragment member => ?_
    rcases mem_statements member with ⟨_, rfl⟩ | ⟨_, rfl⟩
    · rfl
    · rfl
  rw [unitFragments, definitions_append, definitions_append, definitions_append, arguments,
    statements, FunctionDecl.defined, List.map_cons, List.map_singleton, NameScheme.joined_entry,
    names.joined_object]
  rfl

theorem definitions_maker (className : String) :
    definitions (plan.makerFragments names className) = [names.makeNew className] := by
  have lines : definitions plan.rawPart = [] := by
    refine definitions_eq_nil fun fragment member => ?_
    obtain ⟨_, _, rfl⟩ := List.mem_map.mp member
    rfl
  rw [makerFragments, definitions_append, definitions_append, lines]
  rfl

end FunctionPlan

theorem definitions_units (names : NameScheme) {plans : List FunctionPlan}
    {functions : List FunctionDecl} (decls : plans.map (·.decl) = functions) :
    definitions (plans.flatMap (·.unitFragments names)) =
      (functions.flatMap (·.defined)).map names.joined := by
  rw [definitions_flatMap, ← decls, List.flatMap_map, List.map_flatMap]
  simp only [FunctionPlan.definitions_unit]

theorem definitions_mapFragments {table dict : String} {entries : List Fragment}
    (plain : ∀ fragment ∈ entries, fragment.isMapEntry = true) :
    definitions (mapFragments table dict entries) = [table, dict] := by
  have none : definitions entries = [] := by
    refine definitions_eq_nil fun fragment member => ?_
    cases fragment with
    | mapEntry => rfl
    | _ => cases plain _ member
  rw [mapFragments, definitions_append, definitions_append, none]
  rfl

/-- The artefacts of a class, spelled out. -/
theorem ClassDecl.joined_artefacts (names : NameScheme) (c : ClassDecl) :
    (c.artefacts.map (·.text)).map names.joined =
      [names.layout c.name] ++
        (if c.methods.any (·.isConstructor) then [names.makeNew c.name] else []) ++
        (if c.registered.isEmpty then []
          else [names.localsTable c.name, names.localsDict c.name]) ++
        [names.typeObject c.name] := by
  have behind : (c.artefacts.map (·.text)).map names.joined =
      c.endings.map fun ending => names.stem ++ "_" ++ c.name ++ ending := by
    rw [artefacts, List.map_map, List.map_map]
    exact List.map_congr_left fun ending _ => NameScheme.joined_append c.name ending
  rw [behind]
  unfold endings
  split
  · split
    · rfl
    · rfl
  · split
    · rfl
    · rfl

namespace ClassPlan

variable (names : NameScheme) {c : ClassDecl} {plan : ClassPlan}

theorem definitions_localsPart (planned : ofDecl c = .ok plan) :
    definitions (plan.localsPart names) =
      if c.registered.isEmpty then [] else [names.localsTable c.name, names.localsDict c.name] := by
  obtain ⟨rfl, -⟩ := ofDecl_eq_ok_iff.mp planned
  rw [← methods_map_decl planned, List.isEmpty_map]
  unfold localsPart
  split
  · rfl
  · refine definitions_mapFragments fun fragment member => ?_
    obtain ⟨_, _, rfl⟩ := List.mem_map.mp member
    rfl

theorem definitions_makers (planned : ofDecl c = .ok plan) (single : c.constructors.length ≤ 1) :
    definitions (plan.maker.toList.flatMap (·.makerFragments names c.name)) =
      if c.methods.any (·.isConstructor) then [names.makeNew c.name] else [] := by
  -- A plan holds a constructor exactly where the class declares one.
  have makers := maker_map_decl planned single
  rw [definitions_flatMap]
  simp only [FunctionPlan.definitions_maker]
  cases maker : plan.maker with
  | none =>
    rw [maker] at makers
    rw [if_neg]
    · rfl
    · rw [List.any_eq_true]
      rintro ⟨f, member, constructor⟩
      have found := List.mem_filter.mpr ⟨member, constructor⟩
      rw [← makers] at found
      cases found
  | some p =>
    rw [maker] at makers
    have found : p.decl ∈ c.methods.filter (·.isConstructor) := makers ▸ List.mem_cons_self
    obtain ⟨member, constructor⟩ := List.mem_filter.mp found
    rw [if_pos (List.any_eq_true.mpr ⟨p.decl, member, constructor⟩)]
    rfl

theorem definitions_perm (planned : ofDecl c = .ok plan) (single : c.constructors.length ≤ 1) :
    (definitions (plan.classFragments names)).Perm (c.defined.map names.joined) := by
  have locals := definitions_localsPart names planned
  have makers := definitions_makers names planned single
  have units := definitions_units names (methods_map_decl planned)
  obtain ⟨rfl, -⟩ := ofDecl_eq_ok_iff.mp planned
  have layout : definitions [.instanceLayout (names.layout plan.decl.name), .blank] =
      [names.layout plan.decl.name] := rfl
  have type : definitions (plan.typePart names) = [names.typeObject plan.decl.name] := rfl
  rw [classFragments, definitions_append, definitions_append, definitions_append,
    definitions_append, layout, units, makers, locals, type, ClassDecl.defined, List.map_append,
    ClassDecl.joined_artefacts]
  -- Only the layout comes before the methods.
  simp only [List.append_assoc]
  exact List.perm_append_comm_assoc _ _ _

end ClassPlan

/-- What a module defines in the order of the file, sorted by kinds. -/
theorem ModuleDecl.perm_defined (m : ModuleDecl) :
    (m.functions.flatMap (·.defined) ++ m.classes.flatMap (·.defined) ++
      DerivedName.moduleEndings).Perm m.defined := by
  have classes : (m.classes.flatMap (·.defined)).Perm
      (m.classes.flatMap (·.registered.flatMap (·.defined)) ++
        m.classes.flatMap (·.artefacts.map (·.text))) :=
    (List.flatMap_append_perm m.classes _ _).symm
  have functions : (m.registered.flatMap (·.defined)).Perm
      (m.registered.map (·.joinedName) ++ m.registered.map (·.object.text)) := by
    rw [List.map_eq_flatMap (f := fun f : FunctionDecl => f.object.text)]
    exact (List.map_append_flatMap_perm m.registered _ _).symm
  have artefacts : m.artefacts.map (·.text) =
      m.classes.flatMap (·.artefacts.map (·.text)) ++ DerivedName.moduleEndings := by
    rw [ModuleDecl.artefacts, List.map_append, List.map_flatMap]
    rfl
  calc m.functions.flatMap (·.defined) ++ m.classes.flatMap (·.defined) ++
        DerivedName.moduleEndings
    _ ~ m.functions.flatMap (·.defined) ++
          (m.classes.flatMap (·.registered.flatMap (·.defined)) ++
            m.classes.flatMap (·.artefacts.map (·.text))) ++ DerivedName.moduleEndings :=
        (classes.append_left _).append_right _
    _ = m.registered.flatMap (·.defined) ++ m.artefacts.map (·.text) := by
        simp only [artefacts, ModuleDecl.registered, List.flatMap_append, List.flatMap_assoc,
          List.append_assoc]
    _ ~ m.registered.map (·.joinedName) ++ m.registered.map (·.object.text) ++
          m.artefacts.map (·.text) := functions.append_right _
    _ = m.defined := by
        rw [ModuleDecl.defined, ModuleDecl.derived, List.map_append, List.map_map,
          List.append_assoc]
        rfl

namespace ModulePlan

variable {m : ModuleDecl} {plan : ModulePlan}

theorem definitions_opening (names : NameScheme) (plan : ModulePlan) :
    definitions (plan.opening names) = [] := rfl

theorem definitions_ending (names : NameScheme) (plan : ModulePlan) :
    definitions (plan.ending names) = DerivedName.moduleEndings.map names.joined := by
  rw [ending, globalEntries_eq, definitions_append,
    definitions_mapFragments fun _ => isMapEntry_of_mem_globalEntries names plan]
  have globals : names.joined "module_globals" = names.globalsDict := String.append_assoc
  have table : names.joined "module_globals_table" = names.globalsTable := String.append_assoc
  have object : names.joined "user_cmodule" = names.moduleObject := String.append_assoc
  rw [DerivedName.moduleEndings, List.map_cons, List.map_cons, List.map_singleton, table, globals,
    object]
  rfl

/-- What the source of a module defines, whatever its names start with. -/
theorem definitions_perm (names : NameScheme) (planned : ofDecl m = .ok plan)
    (single : ∀ c ∈ m.classes, c.constructors.length ≤ 1) :
    (definitions (plan.listing names).fragments).Perm (m.defined.map names.joined) := by
  obtain ⟨-, functions, classes⟩ := ofDecl_eq_ok_iff.mp planned
  have inOrder : (definitions (plan.listing names).fragments).Perm
      ((m.functions.flatMap (·.defined) ++ m.classes.flatMap (·.defined) ++
        DerivedName.moduleEndings).map names.joined) := by
    rw [fragments_listing, definitions_append, definitions_append, definitions_append,
      definitions_opening, definitions_ending, List.nil_append,
      definitions_units names (FunctionPlan.map_decl_of_planned functions), definitions_flatMap,
      List.map_append, List.map_append, List.map_flatMap (l := m.classes)]
    refine (List.Perm.append_left _ ?_).append_right _
    exact flatMap_perm_of_forall₂ classes fun c declared p found =>
      ClassPlan.definitions_perm names found (single c declared)
  exact inOrder.trans (m.perm_defined.map _)

/-- In the source of an accepted module all names at file scope differ, if and only if the joined
names of its functions differ from each other and from all derived names. -/
theorem definitions_nodup_iff (accepted : ofValid m = .ok plan) :
    (definitions (plan.listing ⟨m.name⟩).fragments).Nodup ↔ m.adopt.NamesApart := by
  obtain ⟨valid, planned⟩ := ofValid_eq_ok_iff.mp accepted
  have named := ModuleDecl.wellNamed_of_validate valid
  have classes := (List.nodup_append.mp named.distinct).2.1
  have listed := definitions_perm ⟨m.name⟩ planned fun c declared =>
    (named.classes c declared).single
  rw [listed.nodup_iff, List.nodup_map_iff NameScheme.joined_injective,
    ModuleDecl.nodup_defined_iff classes]

end ModulePlan

/-! ## Two modules -/

theorem counterModule_nodup :
    ModulePlan.ofValid counterModule = .ok counterPlan ∧
      (definitions (counterPlan.listing ⟨"m"⟩).fragments).Nodup := by
  have accepted : ModulePlan.ofValid counterModule = .ok counterPlan := rfl
  refine ⟨accepted, (ModulePlan.definitions_nodup_iff accepted).mpr ⟨by decide, ?_⟩⟩
  decide

/-- A function without parameters. -/
def bareFunction (name : String) : FunctionDecl := ⟨name, none, [], false, false, none, none⟩

/-- A module with a function that is named like the object of another one. -/
def clashModule : ModuleDecl := ⟨"m", none, none, [bareFunction "f", bareFunction "f_obj"], []⟩

/-- The plan of `clashModule`. -/
def clashPlan : ModulePlan :=
  ⟨clashModule, [⟨bareFunction "f", .fixed 0, [], []⟩, ⟨bareFunction "f_obj", .fixed 0, [], []⟩],
    []⟩

/-- The module is accepted, but its source defines one name as an object and as an entry point. -/
theorem clashModule_not_nodup :
    ModulePlan.ofValid clashModule = .ok clashPlan ∧
      definitions (clashPlan.listing ⟨"m"⟩).fragments =
        ["m_f", "m_f_obj", "m_f_obj", "m_f_obj_obj", "m_module_globals_table", "m_module_globals",
          "m_user_cmodule"] ∧
      ¬ (definitions (clashPlan.listing ⟨"m"⟩).fragments).Nodup := by
  have listed : definitions (clashPlan.listing ⟨"m"⟩).fragments =
      ["m_f", "m_f_obj", "m_f_obj", "m_f_obj_obj", "m_module_globals_table", "m_module_globals",
        "m_user_cmodule"] := rfl
  refine ⟨rfl, listed, ?_⟩
  rw [listed]
  decide

end BindingGen
