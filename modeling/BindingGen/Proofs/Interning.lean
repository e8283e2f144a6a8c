import BindingGen.Proofs.Acceptance
import BindingGen.Proofs.Definition
import BindingGen.Proofs.Symbol.Fragment

/-!
# What the table of interned strings lists

The table is collected from the text of the source, yet what it lists can be told from the module
alone: `ModuleDecl.Interns` gathers the names that a caller can use and the strings that stand in
tables of arguments. All of these are in the table, apart from the reserved string. Something else
gets into it only with a text that holds the marker and is inserted as it is. The C parameters of an
entry point are such texts: the name of a parameter may end like the marker and complete it with the
ending that C parameters have.

Results:
1. `ModulePlan.regular`: the fragments of an accepted module put identifiers behind the marker.
2. `ModulePlan.mem_internedBy`: what these fragments intern is what the module does.
3. `Artifact.table_of_interns`: the table lists this, and nothing else where no text holds the
   marker; `completedModule_listed` is a module with a C parameter that holds it.
-/

namespace BindingGen

open Text (isIdentifier)
open BindingGen.Symbol (Unmarked references_of_unmarked)

/-! ## Regular listings -/

namespace FunctionPlan

variable {names : NameScheme} {f : FunctionDecl} {plan : FunctionPlan}

theorem regular_unit (named : f.WellNamed) (planned : ofDecl f = .ok plan) :
    ∀ fragment ∈ plan.unitFragments names, fragment.Regular := by
  intro fragment member
  simp only [unitFragments, List.mem_append, List.mem_cons, List.not_mem_nil, or_false] at member
  rcases member with (((rfl | rfl) | argument) | statement) | rfl | rfl | rfl
  · trivial
  · trivial
  · rcases mem_argumentFragments argument with rfl | rfl | ⟨slot, inArgs, rfl⟩ | rfl | ⟨_, rfl⟩
    · trivial
    · trivial
    · exact isIdentifier_of_mem_args named planned inArgs
    · trivial
    · trivial
  · rcases mem_statements statement with ⟨-, rfl⟩ | ⟨_, rfl⟩
    · trivial
    · trivial
  · trivial
  · trivial
  · trivial

theorem regular_maker {className : String} :
    ∀ fragment ∈ plan.makerFragments names className, fragment.Regular := by
  simp only [makerFragments, rawPart, List.forall_mem_append, List.forall_mem_cons,
    List.forall_mem_map, Fragment.Regular, implies_true, List.not_mem_nil, false_imp_iff, and_self]

end FunctionPlan

theorem regular_mapFragments {table dict : String} {entries : List Fragment}
    (regular : ∀ fragment ∈ entries, fragment.Regular) :
    ∀ fragment ∈ mapFragments table dict entries, fragment.Regular := by
  simp only [mapFragments, List.forall_mem_append, List.forall_mem_cons, Fragment.Regular,
    List.not_mem_nil, false_imp_iff, implies_true, and_true, true_and]
  exact regular

namespace ClassPlan

variable {names : NameScheme} {c : ClassDecl} {plan : ClassPlan}

theorem planned_of_mem_methods (planned : ofDecl c = .ok plan) {method : FunctionPlan}
    (member : method ∈ plan.methods) :
    FunctionPlan.ofDecl method.decl = .ok method ∧ method.decl ∈ c.methods := by
  obtain ⟨-, plans, found, -, methods⟩ := ofDecl_eq_ok_iff.mp planned
  rw [methods] at member
  exact FunctionPlan.planned_of_mem found (List.mem_filter.mp member).1

theorem regular (named : c.WellNamed) (planned : ofDecl c = .ok plan) :
    ∀ fragment ∈ plan.classFragments names, fragment.Regular := by
  have own : isIdentifier plan.decl.name = true := by
    rw [(ofDecl_eq_ok_iff.mp planned).1]
    exact named.name
  have methods : ∀ p ∈ plan.methods, FunctionPlan.ofDecl p.decl = .ok p ∧ p.decl.WellNamed := by
    intro p inMethods
    obtain ⟨found, declared⟩ := planned_of_mem_methods planned inMethods
    exact ⟨found, named.methods _ declared⟩
  have locals : ∀ fragment ∈ plan.localsPart names, fragment.Regular := by
    unfold localsPart
    split
    · exact List.forall_mem_nil _
    · exact regular_mapFragments (List.forall_mem_map.mpr fun p inMethods =>
        (methods p inMethods).2.name)
  rw [classFragments]
  simp only [List.forall_mem_append, List.forall_mem_cons, List.forall_mem_flatMap, typePart]
  refine ⟨⟨⟨⟨⟨trivial, trivial, List.forall_mem_nil _⟩, fun p inMethods => ?_⟩, fun _ _ => ?_⟩,
    locals⟩, own, trivial, List.forall_mem_nil _⟩
  · exact FunctionPlan.regular_unit (methods p inMethods).2 (methods p inMethods).1
  · exact FunctionPlan.regular_maker

end ClassPlan

namespace ModulePlan

variable {names : NameScheme} {m : ModuleDecl} {plan : ModulePlan}

theorem regular (named : m.WellNamed) (planned : ofDecl m = .ok plan) :
    ∀ fragment ∈ (plan.listing names).fragments, fragment.Regular := by
  obtain ⟨rfl, functions, classes⟩ := ofDecl_eq_ok_iff.mp planned
  have opening : ∀ fragment ∈ plan.opening names, fragment.Regular := by
    simp only [ModulePlan.opening, List.forall_mem_append, List.forall_mem_cons,
      List.forall_mem_map]
    exact ⟨⟨⟨trivial, trivial, List.forall_mem_nil _⟩, fun _ => id⟩, trivial, trivial, trivial,
      List.forall_mem_nil _⟩
  have function : ∀ p ∈ plan.functions, FunctionPlan.ofDecl p.decl = .ok p ∧ p.decl.WellNamed := by
    intro p inPlan
    obtain ⟨found, declared⟩ := FunctionPlan.planned_of_mem functions inPlan
    exact ⟨found, named.functions _ declared⟩
  have ofClass : ∀ c ∈ plan.classes, ClassPlan.ofDecl c.decl = .ok c ∧ c.decl.WellNamed := by
    intro c inPlan
    obtain ⟨found, declared⟩ := ClassPlan.planned_of_mem classes inPlan
    exact ⟨found, named.classes _ declared⟩
  have entries : ∀ fragment ∈ plan.globalEntries names, fragment.Regular := by
    simp only [globalEntries, List.forall_mem_cons, List.forall_mem_append, List.forall_mem_map]
    exact ⟨⟨by decide, named.name⟩, fun p inPlan => (function p inPlan).2.name,
      fun c inPlan => (ofClass c inPlan).2.name⟩
  rw [fragments_listing, ending, globalEntries_eq]
  simp only [List.forall_mem_append, List.forall_mem_flatMap, List.forall_mem_cons]
  refine ⟨⟨⟨opening, fun p inPlan => ?_⟩, fun c inPlan => ?_⟩, regular_mapFragments entries,
    trivial, trivial, named.name, trivial, trivial, List.forall_mem_nil _⟩
  · exact FunctionPlan.regular_unit (function p inPlan).2 (function p inPlan).1
  · exact ClassPlan.regular (ofClass c inPlan).2 (ofClass c inPlan).1

end ModulePlan

/-! ## What a listing interns -/

/-- A row interns the name of its parameter, and its default where this is an object that is spelled
like an identifier. -/
theorem mem_interned_row {slot : ArgSlot} {s : String} :
    s ∈ (Fragment.argRow slot.row).interned ↔
      s = slot.param.name ∨
        slot.param.default = some (.str s) ∧ slot.kind.isObject = true ∧ isIdentifier s = true := by
  have initializer : s ∈ slot.row.initializer.toList.flatMap Symbol.references ↔
      ∃ value, slot.param.default = some value ∧
        value.constant? slot.kind = some (.stringObject s) := by
    rw [ArgSlot.row, List.mem_flatMap]
    simp only [Option.mem_toList, Option.map_eq_some_iff]
    constructor
    · rintro ⟨_, ⟨value, held, rfl⟩, member⟩
      refine ⟨value, held, ?_⟩
      rw [references_initializer] at member
      split at member
      · next constant => rw [constant, List.mem_singleton.mp member]
      · cases member
    · rintro ⟨value, held, constant⟩
      refine ⟨_, ⟨value, held, rfl⟩, ?_⟩
      rw [references_initializer, constant]
      exact List.mem_singleton_self s
  rw [Fragment.interned, List.mem_cons, initializer]
  refine or_congr_right ?_
  constructor
  · rintro ⟨value, held, constant⟩
    obtain ⟨rfl, holds⟩ := Literal.constant?_eq_stringObject_iff.mp constant
    exact ⟨held, holds⟩
  · rintro ⟨held, holds⟩
    exact ⟨_, held, Literal.constant?_eq_stringObject_iff.mpr ⟨rfl, holds⟩⟩

namespace FunctionDecl

/-- The parameter has a row in a table of arguments. -/
def HasRow (f : FunctionDecl) (p : Parameter) : Prop :=
  p ∈ f.params ∧ ∃ shape, f.callShape = .ok shape ∧ shape.hasArgTable = true

/-- What the table of the arguments of a function interns: the names of the parameters, and where an
object is passed the defaults that are spelled like identifiers. -/
inductive Interns (f : FunctionDecl) : String → Prop
  | param {p : Parameter} : f.HasRow p → f.Interns p.name
  | default {p : Parameter} {kind : ArgKind} {content : String} :
      f.HasRow p → p.default = some (.str content) → ArgKind.ofParameter f p = .ok kind →
      kind.isObject = true → isIdentifier content = true → f.Interns content

end FunctionDecl

/-- What a module interns: its name, the names of its classes and of the functions that are written
by themselves, and what the tables of their arguments do. -/
inductive ModuleDecl.Interns (m : ModuleDecl) : String → Prop
  | name : m.Interns m.name
  | ofClass {c : ClassDecl} : c ∈ m.classes → m.Interns c.name
  | function {f : FunctionDecl} : f ∈ m.registered → m.Interns f.name
  | argument {f : FunctionDecl} {s : String} : f ∈ m.registered → f.Interns s → m.Interns s

/-- What fragments intern. -/
def internedBy (fragments : List Fragment) : List String := fragments.flatMap Fragment.interned

theorem internedBy_append (a b : List Fragment) :
    internedBy (a ++ b) = internedBy a ++ internedBy b := List.flatMap_append

theorem internedBy_flatMap {α : Type} (as : List α) (f : α → List Fragment) :
    internedBy (as.flatMap f) = as.flatMap fun a => internedBy (f a) := List.flatMap_assoc

theorem internedBy_eq_nil {part : List Fragment}
    (plain : ∀ fragment ∈ part, fragment.interned = []) : internedBy part = [] :=
  List.flatMap_eq_nil_iff.mpr plain

/-- Entries that intern one string each intern these strings in order. -/
theorem internedBy_map {α : Type} (as : List α) {entry : α → Fragment} {name : α → String}
    (one : ∀ a, (entry a).interned = [name a]) : internedBy (as.map entry) = as.map name := by
  rw [internedBy, List.flatMap_map, List.map_eq_flatMap]
  exact List.flatMap_congr fun a _ => one a

namespace FunctionPlan

variable {names : NameScheme} {f : FunctionDecl} {plan : FunctionPlan}

theorem internedBy_unit (names : NameScheme) (plan : FunctionPlan) :
    internedBy (plan.unitFragments names) = internedBy plan.argumentFragments := by
  have statements : internedBy plan.statements = [] := internedBy_eq_nil fun _ member => by
    rcases mem_statements member with ⟨-, rfl⟩ | ⟨_, rfl⟩
    · rfl
    · rfl
  rw [unitFragments, internedBy_append, internedBy_append, internedBy_append, statements,
    List.append_nil]
  exact List.append_nil _

theorem internedBy_maker (names : NameScheme) (className : String) (plan : FunctionPlan) :
    internedBy (plan.makerFragments names className) = [] := by
  refine internedBy_eq_nil ?_
  simp only [makerFragments, rawPart, List.forall_mem_append, List.forall_mem_cons,
    List.forall_mem_map]
  exact ⟨⟨⟨rfl, rfl, rfl, rfl, List.forall_mem_nil _⟩, fun _ _ => rfl⟩, rfl, rfl, rfl,
    List.forall_mem_nil _⟩

theorem internedBy_slotEnum (plan : FunctionPlan) : internedBy plan.slotEnum = [] :=
  internedBy_eq_nil fun _ member => by rw [mem_slotEnum member]; rfl

theorem internedBy_argTable (plan : FunctionPlan) :
    internedBy plan.argTable.fragments =
      plan.args.flatMap fun slot => (Fragment.argRow slot.row).interned := by
  rw [fragments_argTable]
  split
  · next empty =>
    rw [List.isEmpty_iff.mp empty]
    rfl
  · rw [tableFragments, internedBy_append, internedBy_append, internedBy_append,
      internedBy_slotEnum]
    show [] ++ [] ++ internedBy (plan.args.map fun slot => .argRow slot.row) ++ [] = _
    rw [List.append_nil, List.append_nil, List.nil_append, internedBy, List.flatMap_map]

/-- Only a shape with a table of arguments interns anything about them. -/
theorem internedBy_argumentFragments (plan : FunctionPlan) :
    internedBy plan.argumentFragments =
      if plan.shape.hasArgTable then
        plan.args.flatMap fun slot => (Fragment.argRow slot.row).interned
      else [] := by
  unfold argumentFragments argPart
  cases plan.shape with
  | fixed => rfl
  | between => exact internedBy_argTable plan
  | atLeast =>
    rw [Listing.fragments_ofFragments]
    exact internedBy_slotEnum plan
  | keyword => exact internedBy_argTable plan

/-- What a body declares about arguments interns what the function says of them. -/
theorem mem_internedBy_arguments (planned : ofDecl f = .ok plan) {s : String} :
    s ∈ internedBy plan.argumentFragments ↔ f.Interns s := by
  obtain ⟨rfl, shaped, slots, -⟩ := ofDecl_eq_ok_iff.mp planned
  rw [internedBy_argumentFragments]
  constructor
  · intro member
    split at member
    · next table =>
      obtain ⟨slot, inArgs, found⟩ := List.mem_flatMap.mp member
      obtain ⟨p, declared, resolved⟩ := exists_of_mem_right slots inArgs
      obtain ⟨rfl, kind⟩ := slot_eq_ok_iff.mp resolved
      have row : plan.decl.HasRow slot.param := ⟨declared, _, shaped, table⟩
      rcases mem_interned_row.mp found with rfl | ⟨held, object, identifier⟩
      · exact .param row
      · exact .default row held kind object identifier
    · cases member
  · intro interns
    have inTable : ∀ p, plan.decl.HasRow p → plan.shape.hasArgTable = true ∧
        ∃ slot ∈ plan.args, slot.param = p ∧ ArgKind.ofParameter plan.decl p = .ok slot.kind := by
      rintro p ⟨declared, shape, shaped', table⟩
      cases shaped.symm.trans shaped'
      obtain ⟨slot, inArgs, resolved⟩ := exists_of_mem_left slots declared
      exact ⟨table, slot, inArgs, slot_eq_ok_iff.mp resolved⟩
    cases interns with
    | param row =>
      obtain ⟨table, slot, inArgs, rfl, -⟩ := inTable _ row
      rw [if_pos table]
      exact List.mem_flatMap.mpr ⟨slot, inArgs, mem_interned_row.mpr (.inl rfl)⟩
    | default row held kind object identifier =>
      obtain ⟨table, slot, inArgs, rfl, kind'⟩ := inTable _ row
      cases kind.symm.trans kind'
      rw [if_pos table]
      exact List.mem_flatMap.mpr
        ⟨slot, inArgs, mem_interned_row.mpr (.inr ⟨held, object, identifier⟩)⟩

end FunctionPlan

theorem internedBy_mapFragments (table dict : String) (entries : List Fragment) :
    internedBy (mapFragments table dict entries) = internedBy entries := by
  rw [mapFragments, internedBy_append, internedBy_append]
  exact List.append_nil _

namespace ClassPlan

variable {names : NameScheme} {c : ClassDecl} {plan : ClassPlan}

theorem internedBy_localsPart (names : NameScheme) (plan : ClassPlan) :
    internedBy (plan.localsPart names) = plan.methods.map (·.decl.name) := by
  unfold localsPart
  split
  · next empty =>
    rw [List.isEmpty_iff.mp empty]
    rfl
  · rw [internedBy_mapFragments]
    exact internedBy_map _ fun _ => rfl

/-- A class interns its name and those of its methods besides what their arguments do. -/
theorem mem_internedBy (names : NameScheme) (planned : ofDecl c = .ok plan) {s : String} :
    s ∈ internedBy (plan.classFragments names) ↔
      s = c.name ∨ ∃ f ∈ c.registered, s = f.name ∨ f.Interns s := by
  have makers : ∀ makers : List FunctionPlan, internedBy
      (makers.flatMap (·.makerFragments names plan.decl.name)) = [] := by
    intro makers
    rw [internedBy_flatMap]
    exact List.flatMap_eq_nil_iff.mpr fun maker _ => maker.internedBy_maker names plan.decl.name
  have type : internedBy (plan.typePart names) = [c.name] := by
    rw [← (ofDecl_eq_ok_iff.mp planned).1]
    rfl
  have opening : internedBy [.instanceLayout (names.layout plan.decl.name), .blank] = [] := rfl
  rw [classFragments, internedBy_append, internedBy_append, internedBy_append, internedBy_append,
    makers, type, opening, internedBy_localsPart, internedBy_flatMap, ← methods_map_decl planned]
  simp only [FunctionPlan.internedBy_unit, List.nil_append, List.append_nil, List.mem_append,
    List.mem_flatMap, List.mem_map, List.mem_singleton, exists_exists_and_eq_and]
  have methods : ∀ p ∈ plan.methods, (s ∈ internedBy p.argumentFragments ↔ p.decl.Interns s) :=
    fun p member => FunctionPlan.mem_internedBy_arguments (planned_of_mem_methods planned member).1
  constructor
  · rintro ((⟨p, inMethods, found⟩ | ⟨p, inMethods, rfl⟩) | rfl)
    · exact .inr ⟨p, inMethods, .inr ((methods p inMethods).mp found)⟩
    · exact .inr ⟨p, inMethods, .inl rfl⟩
    · exact .inl rfl
  · rintro (rfl | ⟨p, inMethods, rfl | found⟩)
    · exact .inr rfl
    · exact .inl (.inr ⟨p, inMethods, rfl⟩)
    · exact .inl (.inl ⟨p, inMethods, (methods p inMethods).mpr found⟩)

end ClassPlan

namespace ModulePlan

variable {names : NameScheme} {m : ModuleDecl} {plan : ModulePlan}

theorem internedBy_ending (names : NameScheme) (plan : ModulePlan) :
    internedBy (plan.ending names) =
      [reservedSymbol, plan.decl.name] ++
        (plan.functions.map (·.decl.name) ++ plan.classes.map (·.decl.name)) ++
          [plan.decl.name] := by
  have functions : internedBy (plan.functions.map (·.mapEntry names)) =
      plan.functions.map (·.decl.name) := internedBy_map _ fun _ => rfl
  have classes : internedBy (plan.classes.map (·.mapEntry names)) =
      plan.classes.map (·.decl.name) := internedBy_map _ fun _ => rfl
  have own : internedBy [.mapEntry reservedSymbol (.string plan.decl.name)] =
      [reservedSymbol, plan.decl.name] := rfl
  rw [ending, globalEntries_eq, internedBy_append, internedBy_mapFragments, globalEntries,
    ← List.singleton_append, internedBy_append, internedBy_append, own, functions, classes]
  rfl

/-- A listing interns what its module does, and the reserved string. -/
theorem mem_internedBy (names : NameScheme) (planned : ofDecl m = .ok plan) {s : String} :
    s ∈ internedBy (plan.listing names).fragments ↔ s = reservedSymbol ∨ m.Interns s := by
  obtain ⟨rfl, functions, classes⟩ := ofDecl_eq_ok_iff.mp planned
  have opening : internedBy (plan.opening names) = [] := rfl
  have arguments : s ∈ internedBy (plan.functions.flatMap (·.unitFragments names)) ↔
      ∃ f ∈ plan.decl.functions, f.Interns s := by
    rw [← FunctionPlan.map_decl_of_planned functions, internedBy_flatMap, List.mem_flatMap]
    simp only [FunctionPlan.internedBy_unit, List.mem_map, exists_exists_and_eq_and]
    refine exists_congr fun p => and_congr_right fun inPlan => ?_
    exact FunctionPlan.mem_internedBy_arguments (FunctionPlan.planned_of_mem functions inPlan).1
  have units : s ∈ internedBy (plan.classes.flatMap (·.classFragments names)) ↔
      ∃ c ∈ plan.decl.classes, s = c.name ∨ ∃ f ∈ c.registered, s = f.name ∨ f.Interns s := by
    rw [← ClassPlan.map_decl_of_planned classes, internedBy_flatMap, List.mem_flatMap]
    simp only [List.mem_map, exists_exists_and_eq_and]
    refine exists_congr fun c => and_congr_right fun inPlan => ?_
    exact ClassPlan.mem_internedBy names (ClassPlan.planned_of_mem classes inPlan).1
  have functionNames : plan.functions.map (·.decl.name) = plan.decl.functions.map (·.name) := by
    rw [← FunctionPlan.map_decl_of_planned functions, List.map_map]
    rfl
  have classNames : plan.classes.map (·.decl.name) = plan.decl.classes.map (·.name) := by
    rw [← ClassPlan.map_decl_of_planned classes, List.map_map]
    rfl
  rw [fragments_listing, internedBy_append, internedBy_append, internedBy_append, opening,
    internedBy_ending, functionNames, classNames]
  simp only [List.nil_append, List.mem_append, arguments, units, List.mem_cons, List.not_mem_nil,
    or_false, List.mem_map]
  constructor
  · rintro ((⟨f, declared, found⟩ | ⟨c, declared, rfl | ⟨f, registered, rfl | found⟩⟩) |
      ((rfl | rfl) | ⟨f, declared, rfl⟩ | ⟨c, declared, rfl⟩) | rfl)
    · exact .inr (.argument (List.mem_append_left _ declared) found)
    · exact .inr (.ofClass declared)
    · exact .inr (.function
        (List.mem_append_right _ (List.mem_flatMap.mpr ⟨c, declared, registered⟩)))
    · exact .inr (.argument
        (List.mem_append_right _ (List.mem_flatMap.mpr ⟨c, declared, registered⟩)) found)
    · exact .inl rfl
    · exact .inr .name
    · exact .inr (.function (List.mem_append_left _ declared))
    · exact .inr (.ofClass declared)
    · exact .inr .name
  · rintro (rfl | interns)
    · exact .inr (.inl (.inl (.inl rfl)))
    · cases interns with
      | name => exact .inr (.inr rfl)
      | ofClass declared => exact .inl (.inr ⟨_, declared, .inl rfl⟩)
      | @function f registered =>
        rcases List.mem_append.mp registered with declared | inClass
        · exact .inr (.inl (.inr (.inl ⟨f, declared, rfl⟩)))
        · obtain ⟨c, declared, member⟩ := List.mem_flatMap.mp inClass
          exact .inl (.inr ⟨c, declared, .inr ⟨f, member, .inl rfl⟩⟩)
      | @argument f _ registered found =>
        rcases List.mem_append.mp registered with declared | inClass
        · exact .inl (.inl ⟨f, declared, found⟩)
        · obtain ⟨c, declared, member⟩ := List.mem_flatMap.mp inClass
          exact .inl (.inr ⟨c, declared, .inr ⟨f, member, .inr found⟩⟩)

end ModulePlan

/-! ## The table of an accepted module -/

namespace Artifact

variable {layout : Layout} {m : ModuleDecl} {plan : ModulePlan}

/-- The table of an accepted module lists what the module interns and what stands behind the marker
in an inserted text, without the reserved string. -/
theorem mem_table_iff (planned : ModulePlan.ofValid m = .ok plan) {s : String} :
    s ∈ (ofPlan layout plan).table.toList ↔
      s ≠ reservedSymbol ∧ (m.adopt.Interns s ∨
        ∃ fragment ∈ (plan.listing ⟨m.name⟩).fragments,
          ∃ text ∈ fragment.inserted ++ fragment.paramNames, s ∈ Symbol.references text) := by
  obtain ⟨valid, planned⟩ := ModulePlan.ofValid_eq_ok_iff.mp planned
  have named := ModuleDecl.wellNamed_of_validate valid
  have stem : plan.decl.name = m.name := by
    rw [(ModulePlan.ofDecl_eq_ok_iff.mp planned).1]
    rfl
  rw [table_ofPlan, stem, Listing.mem_table, List.mem_flatMap]
  refine and_congr_right fun ordinary => ?_
  have interns : (∃ fragment ∈ (plan.listing ⟨m.name⟩).fragments, s ∈ fragment.interned) ↔
      m.adopt.Interns s := by
    rw [← List.mem_flatMap]
    exact (ModulePlan.mem_internedBy ⟨m.name⟩ planned).trans (or_iff_right ordinary)
  rw [← interns, ← exists_or]
  refine exists_congr fun fragment => ?_
  rw [← and_or_left]
  refine and_congr_right fun member => ?_
  have exact := Fragment.refersExactly (ModulePlan.regular named planned fragment member)
  rw [exact.mem_iff, List.mem_append, List.mem_flatMap]

/-- The table of an accepted module lists all that the module interns except for the reserved
string, and nothing else where the marker stands in no line of a comment, no line of C that a
documentation carries, no placeholder, no condition and no name that the source makes. -/
theorem table_of_interns {artifact : Artifact} (accepted : generateWith layout m = .ok artifact) :
    (∀ s, m.adopt.Interns s → s ≠ reservedSymbol → s ∈ artifact.table.toList) ∧
      ∃ plan, ModulePlan.ofValid m = .ok plan ∧
        ((∀ fragment ∈ (plan.listing ⟨m.name⟩).fragments,
            ∀ text ∈ fragment.inserted ++ fragment.paramNames, Unmarked text) →
          ∀ s, s ∈ artifact.table.toList ↔ m.adopt.Interns s ∧ s ≠ reservedSymbol) := by
  obtain ⟨plan, planned, rfl⟩ := generateWith_eq_ok accepted
  refine ⟨fun s interns ordinary => ?_, plan, planned, fun clear s => ?_⟩
  · exact (mem_table_iff planned).mpr ⟨ordinary, .inl interns⟩
  · rw [mem_table_iff planned, and_comm]
    refine and_congr_left fun _ => or_iff_left ?_
    rintro ⟨fragment, member, text, inserted, found⟩
    rw [references_of_unmarked (clear fragment member text inserted)] at found
    cases found

/-- A parameter with a string for its default. -/
def modeParameter : Parameter := ⟨"mode", .positional, some (.str "rb"), none⟩

/-- A function with `modeParameter`, which gets a row in a table. -/
def modeFunction : FunctionDecl := ⟨"open", none, [modeParameter], false, false, none, none⟩

/-- A module that holds `modeFunction`. -/
def modeModule : ModuleDecl := ⟨"m", none, none, [modeFunction], []⟩

/-- The plan of `modeModule`. -/
def modePlan : ModulePlan :=
  ⟨modeModule, [⟨modeFunction, .between 0 1, [⟨modeParameter, .object⟩], []⟩], []⟩

theorem modeModule_listed :
    ∃ artifact, generateWith .standard modeModule = .ok artifact ∧
      (∀ fragment ∈ (modePlan.listing ⟨"m"⟩).fragments,
        ∀ text ∈ fragment.inserted ++ fragment.paramNames, Unmarked text) ∧
      ∀ s, s ∈ artifact.table.toList ↔ modeModule.adopt.Interns s ∧ s ≠ reservedSymbol := by
  have known : ModulePlan.ofValid modeModule = .ok modePlan := rfl
  have accepted : generateWith .standard modeModule = .ok (ofPlan .standard modePlan) :=
    generateWith_of_ok known
  have clear : ∀ fragment ∈ (modePlan.listing ⟨"m"⟩).fragments,
      ∀ text ∈ fragment.inserted ++ fragment.paramNames, Unmarked text := by
    decide +kernel
  obtain ⟨-, plan, planned, listed⟩ := table_of_interns accepted
  obtain rfl : modePlan = plan := Except.ok.inj (known.symm.trans planned)
  exact ⟨_, accepted, clear, listed clear⟩

/-- A function whose parameter is named like the marker without its last character. -/
def completedFunction : FunctionDecl :=
  ⟨"f", none, [⟨"MP_QSTR", .positional, none, none⟩], false, false, none, none⟩

/-- A module that holds `completedFunction`. -/
def completedModule : ModuleDecl := ⟨"m", none, none, [completedFunction], []⟩

/-- The plan of `completedModule`: its only argument is passed by itself. -/
def completedPlan : ModulePlan :=
  ⟨completedModule, [⟨completedFunction, .fixed 1,
    [⟨⟨"MP_QSTR", .positional, none, none⟩, .object⟩], []⟩], []⟩

/-- The C parameter is the marker and `in`, so that the table lists `in`, although the module does
not intern it and no other text holds the marker. -/
theorem completedModule_listed :
    ModulePlan.ofValid completedModule = .ok completedPlan ∧
      (∀ fragment ∈ (completedPlan.listing ⟨"m"⟩).fragments,
        ∀ text ∈ fragment.inserted, Unmarked text) ∧
      "in" ∈ (ofPlan .standard completedPlan).table.toList ∧
      ¬ completedModule.adopt.Interns "in" ∧
      ¬ ∀ s, s ∈ (ofPlan .standard completedPlan).table.toList ↔
        completedModule.adopt.Interns s ∧ s ≠ reservedSymbol := by
  have planned : ModulePlan.ofValid completedModule = .ok completedPlan := rfl
  have listed : "in" ∈ (ofPlan .standard completedPlan).table.toList := by
    refine (mem_table_iff planned).mpr ⟨by decide, .inr ?_⟩
    exact ⟨.entryOpen "m_f" (.fixed ["MP_QSTR_in"]), by decide, "MP_QSTR_in", by decide,
      by decide +kernel⟩
  have only : ∀ s, completedModule.adopt.Interns s → s = "m" ∨ s = "f" := by
    intro s interns
    cases interns with
    | name => exact .inl rfl
    | ofClass declared => cases declared
    | function registered =>
      obtain rfl := List.mem_singleton.mp registered
      exact .inr rfl
    | argument registered found =>
      obtain rfl := List.mem_singleton.mp registered
      have noRow : ∀ p, ¬ completedFunction.HasRow p := by
        rintro p ⟨-, shape, shaped, table⟩
        cases shaped
        cases table
      cases found with
      | param row => exact absurd row (noRow _)
      | default row => exact absurd row (noRow _)
  have foreign : ¬ completedModule.adopt.Interns "in" := fun interns =>
    absurd (only "in" interns) (by decide)
  refine ⟨planned, by decide +kernel, listed, foreign, fun exact => ?_⟩
  exact foreign ((exact "in").mp listed).1

end Artifact

end BindingGen
