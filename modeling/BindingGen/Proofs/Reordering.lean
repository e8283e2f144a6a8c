import BindingGen.Proofs.Acceptance
import Mathlib.Data.List.Perm.Basic

/-!
# The order of declaration

The source of a module follows the order in which its functions, its classes and their methods are
declared. The table of interned strings does not: it is sorted, and it is made from the fragments of
the source, which are the same ones in any order of declaration. Nor does the order decide whether a
module is accepted, although it does decide which fault is reported.

`Reordered m other` says that the declarations of one module are those of the other in some order,
at every level.

Results:
1. `ModuleDecl.wellNamed_iff_of_reordered`: names are checked in order, but what they have to
   satisfy is the same in any order.
2. `ModulePlan.fragments_perm`: the fragments of a source are those of the other one, in some order.
3. `Artifact.symbols_of_reordered`: both modules are accepted or neither is, and they have the same
   table of interned strings.
-/

namespace BindingGen

open scoped List

/-! ## Lists in another order -/

section Lists

variable {α β γ δ : Type} {R : α → β → Prop}

theorem forall_mem_iff_of_forall₂ {p : α → Prop} {q : β → Prop} {as : List α} {bs : List β}
    (related : List.Forall₂ R as bs) (same : ∀ a b, R a b → (p a ↔ q b)) :
    (∀ a ∈ as, p a) ↔ ∀ b ∈ bs, q b := by
  induction related with
  | nil => exact iff_of_true nofun nofun
  | cons first _ ih => rw [List.forall_mem_cons, List.forall_mem_cons, same _ _ first, ih]

/-- What a step returns for elements in another order are its results in another order. -/
theorem perm_of_forall₂ {as others : List α} {bs results : List β}
    (single : Relator.RightUnique R) (perm : as ~ others) (first : List.Forall₂ R as bs)
    (second : List.Forall₂ R others results) : bs ~ results := by
  obtain ⟨middle, related, reordered⟩ := List.perm_comp_forall₂ perm second
  rw [List.right_unique_forall₂' single first related]
  exact reordered

/-- Results of steps correspond where what the steps are taken from does. -/
theorem forall₂_results {S : α → γ → Prop} {T : β → δ → Prop} {Q : γ → δ → Prop} {as : List α}
    {bs : List β} {cs : List γ} {ds : List δ} (related : List.Forall₂ R as bs)
    (first : List.Forall₂ S as cs) (second : List.Forall₂ T bs ds)
    (each : ∀ a ∈ as, ∀ b c d, R a b → S a c → T b d → Q c d) : List.Forall₂ Q cs ds := by
  induction related generalizing cs ds with
  | nil =>
    rw [List.forall₂_nil_left_iff.mp first, List.forall₂_nil_left_iff.mp second]
    exact .nil
  | cons head _ ih =>
    obtain ⟨c, cs, found, others, rfl⟩ := List.forall₂_cons_left_iff.mp first
    obtain ⟨d, ds, found', others', rfl⟩ := List.forall₂_cons_left_iff.mp second
    refine .cons (each _ List.mem_cons_self _ _ _ head found found') (ih others others' ?_)
    exact fun a member => each a (List.mem_cons_of_mem _ member)

theorem eq_of_perm_of_length_le_one {as bs : List α} (few : as.length ≤ 1) (perm : as ~ bs) :
    as = bs := by
  match as with
  | [] => exact (List.nil_perm.mp perm).symm
  | [_] => exact List.singleton_perm.mp perm
  | _ :: _ :: _ => exact absurd few (by simp)

end Lists

/-! ## Declarations in another order -/

/-- The class declares the methods of another one, in any order. -/
structure ClassDecl.Reordered (c other : ClassDecl) : Prop where
  name : other.name = c.name
  methods : c.methods ~ other.methods

/-- The module declares the functions and classes of another one, in any order, and each class its
methods in any order. -/
structure ModuleDecl.Reordered (m other : ModuleDecl) : Prop where
  name : other.name = m.name
  author : other.author = m.author
  year : other.year = m.year
  functions : m.functions ~ other.functions
  classes : ∃ middle, m.classes ~ middle ∧ List.Forall₂ ClassDecl.Reordered middle other.classes

namespace ClassDecl

variable {c other : ClassDecl}

theorem Reordered.adopt (reordered : c.Reordered other) : c.adopt.Reordered other.adopt := by
  refine ⟨reordered.name, ?_⟩
  simp only [ClassDecl.adopt, reordered.name]
  exact reordered.methods.map _

theorem Reordered.length_constructors (reordered : c.Reordered other) :
    c.constructors.length = other.constructors.length :=
  (reordered.methods.filter _).length_eq

theorem wellNamed_iff_of_reordered (reordered : c.Reordered other) :
    c.WellNamed ↔ other.WellNamed := by
  have members : (∀ f ∈ c.methods, f.WellNamed) ↔ ∀ f ∈ other.methods, f.WellNamed :=
    forall_congr' fun f => imp_congr_left reordered.methods.mem_iff
  have distinct : (c.ordinary.map (·.name)).Nodup ↔ (other.ordinary.map (·.name)).Nodup :=
    ((reordered.methods.filter _).map _).nodup_iff
  constructor
  · rintro ⟨identifier, methods, single, differ⟩
    exact ⟨reordered.name ▸ identifier, members.mp methods,
      reordered.length_constructors ▸ single, distinct.mp differ⟩
  · rintro ⟨identifier, methods, single, differ⟩
    exact ⟨reordered.name ▸ identifier, members.mpr methods,
      reordered.length_constructors ▸ single, distinct.mpr differ⟩

end ClassDecl

namespace ModuleDecl

variable {m other : ModuleDecl}

theorem Reordered.adopt (reordered : m.Reordered other) : m.adopt.Reordered other.adopt := by
  obtain ⟨middle, perm, related⟩ := reordered.classes
  refine ⟨reordered.name, reordered.author, reordered.year, reordered.functions,
    middle.map ClassDecl.adopt, perm.map ClassDecl.adopt, ?_⟩
  refine List.forall₂_map_left_iff.mpr (List.forall₂_map_right_iff.mpr ?_)
  exact related.imp fun _ _ => ClassDecl.Reordered.adopt

/-- Something holds of all classes in one order if it does in the other, where it does not depend on
the order of methods. -/
theorem Reordered.forall_classes_iff {p : ClassDecl → Prop} (reordered : m.Reordered other)
    (same : ∀ c c', ClassDecl.Reordered c c' → (p c ↔ p c')) :
    (∀ c ∈ m.classes, p c) ↔ ∀ c ∈ other.classes, p c := by
  obtain ⟨middle, perm, related⟩ := reordered.classes
  rw [← forall_mem_iff_of_forall₂ related same]
  exact forall_congr' fun c => imp_congr_left perm.mem_iff

theorem Reordered.classNames (reordered : m.Reordered other) :
    m.classes.map (·.name) ~ other.classes.map (·.name) := by
  obtain ⟨middle, perm, related⟩ := reordered.classes
  have same : middle.map (·.name) = other.classes.map (·.name) := by
    rw [← List.forall₂_eq_eq_eq, List.forall₂_map_left_iff, List.forall₂_map_right_iff]
    exact related.imp fun _ _ found => found.name.symm
  rw [← same]
  exact perm.map _

theorem wellNamed_iff_of_reordered (reordered : m.Reordered other) :
    m.WellNamed ↔ other.WellNamed := by
  have functions : (∀ f ∈ m.functions, f.WellNamed) ↔ ∀ f ∈ other.functions, f.WellNamed :=
    forall_congr' fun f => imp_congr_left reordered.functions.mem_iff
  have classes := reordered.forall_classes_iff fun _ _ => ClassDecl.wellNamed_iff_of_reordered
  have distinct := ((reordered.functions.map (·.name)).append reordered.classNames).nodup_iff
  constructor
  · rintro ⟨identifier, functionsFit, classesFit, differ⟩
    exact ⟨reordered.name ▸ identifier, functions.mp functionsFit, classes.mp classesFit,
      distinct.mp differ⟩
  · rintro ⟨identifier, functionsFit, classesFit, differ⟩
    exact ⟨reordered.name ▸ identifier, functions.mpr functionsFit, classes.mpr classesFit,
      distinct.mpr differ⟩

theorem supported_iff_of_reordered (reordered : m.Reordered other) :
    (∀ f ∈ m.callables, f.Supported) ↔ ∀ f ∈ other.callables, f.Supported := by
  simp only [callables, List.forall_mem_append, List.forall_mem_flatMap]
  refine and_congr (forall_congr' fun f => imp_congr_left reordered.functions.mem_iff) ?_
  refine reordered.forall_classes_iff fun c c' same => ?_
  exact forall_congr' fun f => imp_congr_left same.methods.mem_iff

end ModuleDecl

/-! ## Plans in another order -/

/-- A step has one result at most. -/
theorem rightUnique_eq_ok {α ε β : Type} (f : α → Except ε β) :
    Relator.RightUnique fun a b => f a = .ok b :=
  fun _ _ _ first second => Except.ok.inj (first.symm.trans second)

theorem mapFragments_perm {table dict : String} {entries others : List Fragment}
    (perm : entries ~ others) :
    mapFragments table dict entries ~ mapFragments table dict others :=
  (perm.append_left _).append_right _

namespace ClassPlan

variable {c c' : ClassDecl} {plan other : ClassPlan}

/-- The methods of a class are planned in any order, and its only constructor is the same. -/
theorem perm_of_reordered (reordered : c.Reordered c') (single : c.constructors.length ≤ 1)
    (planned : ofDecl c = .ok plan) (planned' : ofDecl c' = .ok other) :
    plan.methods ~ other.methods ∧ plan.maker = other.maker := by
  obtain ⟨-, plans, found, maker, methods⟩ := ofDecl_eq_ok_iff.mp planned
  obtain ⟨-, plans', found', maker', methods'⟩ := ofDecl_eq_ok_iff.mp planned'
  have perm : plans ~ plans' :=
    perm_of_forall₂ (rightUnique_eq_ok _) reordered.methods found found'
  refine ⟨?_, ?_⟩
  · rw [methods, methods']
    exact perm.filter _
  · have makers := perm.filter (·.decl.isConstructor)
    rw [maker, maker', eq_of_perm_of_length_le_one (length_makers_le found single) makers]

/-- The fragments of a class are the same in any order of its methods. -/
theorem classFragments_perm (names : NameScheme) (reordered : c.Reordered c')
    (single : c.constructors.length ≤ 1) (planned : ofDecl c = .ok plan)
    (planned' : ofDecl c' = .ok other) :
    plan.classFragments names ~ other.classFragments names := by
  obtain ⟨methods, maker⟩ := perm_of_reordered reordered single planned planned'
  have name : other.decl.name = plan.decl.name := by
    rw [(ofDecl_eq_ok_iff.mp planned).1, (ofDecl_eq_ok_iff.mp planned').1, reordered.name]
  have empty : other.methods.isEmpty = plan.methods.isEmpty := methods.symm.isEmpty_eq
  have locals : plan.localsPart names ~ other.localsPart names := by
    unfold localsPart
    rw [name, empty]
    split
    · exact .nil
    · exact mapFragments_perm (methods.map _)
  have type : plan.typePart names = other.typePart names := by
    rw [typePart, typePart, name, maker, empty]
  unfold classFragments
  rw [name, maker, type]
  exact ((((List.Perm.refl _).append (methods.flatMap_right _)).append_right _).append
    locals).append_right _

end ClassPlan

namespace ModulePlan

variable {m other : ModuleDecl} {plan plan' : ModulePlan}

/-- The fragments of a source are the same in any order of declaration. -/
theorem fragments_perm (names : NameScheme) (reordered : m.Reordered other)
    (single : ∀ c ∈ m.classes, c.constructors.length ≤ 1) (planned : ofDecl m = .ok plan)
    (planned' : ofDecl other = .ok plan') :
    (plan.listing names).fragments ~ (plan'.listing names).fragments := by
  obtain ⟨decl, functions, classes⟩ := ofDecl_eq_ok_iff.mp planned
  obtain ⟨decl', functions', classes'⟩ := ofDecl_eq_ok_iff.mp planned'
  have functionPlans : plan.functions ~ plan'.functions :=
    perm_of_forall₂ (rightUnique_eq_ok _) reordered.functions functions functions'
  obtain ⟨middle, perm, related⟩ := reordered.classes
  obtain ⟨middlePlans, middleFound, classPlans⟩ := List.perm_comp_forall₂ perm.symm classes
  -- Between the two plans there is one that has only the classes in another order.
  have paired : List.Forall₂ (fun p p' => p'.classFragments names ~ p.classFragments names ∧
      p'.mapEntry names = p.mapEntry names) middlePlans plan'.classes := by
    refine forall₂_results related middleFound classes' ?_
    intro c member c' p p' same found found'
    refine ⟨(ClassPlan.classFragments_perm names same ?_ found found').symm, ?_⟩
    · exact single c (perm.mem_iff.mpr member)
    · rw [ClassPlan.mapEntry, ClassPlan.mapEntry, (ClassPlan.ofDecl_eq_ok_iff.mp found).1,
        (ClassPlan.ofDecl_eq_ok_iff.mp found').1, same.name]
  have classUnits : plan.classes.flatMap (·.classFragments names) ~
      plan'.classes.flatMap (·.classFragments names) := by
    refine (classPlans.symm.flatMap_right _).trans (List.Perm.symm ?_)
    exact flatMap_perm_of_forall₂ paired fun _ _ _ found => found.1
  have classEntries : plan.classes.map (·.mapEntry names) ~
      plan'.classes.map (·.mapEntry names) := by
    have same : middlePlans.map (·.mapEntry names) = plan'.classes.map (·.mapEntry names) := by
      rw [← List.forall₂_eq_eq_eq, List.forall₂_map_left_iff, List.forall₂_map_right_iff]
      exact paired.imp fun _ _ found => found.2.symm
    rw [← same]
    exact classPlans.symm.map _
  have opening : plan.opening names = plan'.opening names := by
    rw [ModulePlan.opening, ModulePlan.opening, decl, decl', reordered.name, reordered.author,
      reordered.year]
  have ending : plan.ending names ~ plan'.ending names := by
    rw [ModulePlan.ending, ModulePlan.ending, decl, decl', reordered.name]
    refine List.Perm.append_right _ ?_
    rw [globalsPart, globalsPart, decl, decl', reordered.name]
    exact mapFragments_perm (((functionPlans.map _).append classEntries).cons _)
  rw [fragments_listing, fragments_listing, opening]
  exact (((List.Perm.refl _).append (functionPlans.flatMap_right _)).append classUnits).append
    ending

end ModulePlan

/-- A table is known by its strings. -/
theorem Listing.table_eq_of_mem_iff {a b : Listing}
    (members : ∀ s, s ∈ a.table.toList ↔ s ∈ b.table.toList) : a.table = b.table :=
  SymbolTable.eq_of_mem_iff (table_pairwise a) (table_pairwise b) members

/-- A table is made from the fragments of a source, whatever their order. -/
theorem Listing.table_eq_of_perm {a b : Listing} (perm : a.fragments ~ b.fragments) :
    a.table = b.table := by
  refine table_eq_of_mem_iff fun s => ?_
  rw [mem_table, mem_table, (perm.flatMap_right _).mem_iff]

namespace Artifact

variable {layout : Layout} {m other : ModuleDecl}

theorem symbols_ofPlan (plan : ModulePlan) :
    (ofPlan layout plan).symbols =
      (ofPlan layout plan).table.render (NameScheme.guard ⟨plan.decl.name⟩) := rfl

theorem symbolFile_ofPlan (plan : ModulePlan) :
    (ofPlan layout plan).symbolFile = NameScheme.symbolFile ⟨plan.decl.name⟩ := rfl

/-- A module is accepted if and only if, once adopted, it is well named and everything in it can be
translated. -/
theorem exists_generateWith_eq_ok_iff :
    (∃ artifact, generateWith layout m = .ok artifact) ↔
      m.adopt.WellNamed ∧ ∀ f ∈ m.adopt.callables, f.Supported := by
  rw [← ModulePlan.exists_ofDecl_eq_ok_iff]
  constructor
  · rintro ⟨artifact, accepted⟩
    obtain ⟨plan, planned, -⟩ := generateWith_eq_ok accepted
    obtain ⟨valid, planned⟩ := ModulePlan.ofValid_eq_ok_iff.mp planned
    exact ⟨ModuleDecl.wellNamed_of_validate valid, plan, planned⟩
  · rintro ⟨named, plan, planned⟩
    have valid : m.adopt.validate = .ok () :=
      mapError_eq_ok_iff.mpr (ModuleDecl.check_eq_ok_iff.mpr named)
    exact ⟨_, generateWith_of_ok (ModulePlan.ofValid_eq_ok_iff.mpr ⟨valid, planned⟩)⟩

/-- A module is accepted in one order of declaration if and only if it is in the other, and then the
table of interned strings, its text and the name of its file are the same. -/
theorem symbols_of_reordered (reordered : m.Reordered other) :
    ((∃ artifact, generateWith layout m = .ok artifact) ↔
      ∃ artifact, generateWith layout other = .ok artifact) ∧
    ∀ a b, generateWith layout m = .ok a → generateWith layout other = .ok b →
      b.table = a.table ∧ b.symbols = a.symbols ∧ b.symbolFile = a.symbolFile := by
  have adopted := reordered.adopt
  constructor
  · rw [exists_generateWith_eq_ok_iff, exists_generateWith_eq_ok_iff,
      ModuleDecl.wellNamed_iff_of_reordered adopted, ModuleDecl.supported_iff_of_reordered adopted]
  · intro a b accepted accepted'
    obtain ⟨plan, planned, rfl⟩ := generateWith_eq_ok accepted
    obtain ⟨plan', planned', rfl⟩ := generateWith_eq_ok accepted'
    obtain ⟨valid, planned⟩ := ModulePlan.ofValid_eq_ok_iff.mp planned
    obtain ⟨-, planned'⟩ := ModulePlan.ofValid_eq_ok_iff.mp planned'
    have name : plan'.decl.name = plan.decl.name := by
      rw [(ModulePlan.ofDecl_eq_ok_iff.mp planned).1, (ModulePlan.ofDecl_eq_ok_iff.mp planned').1,
        adopted.name]
    have fragments := ModulePlan.fragments_perm ⟨plan.decl.name⟩ adopted
      (fun _ => ModuleDecl.constructors_le_one_of_validate valid) planned planned'
    have table : (ofPlan layout plan').table = (ofPlan layout plan).table := by
      rw [table_ofPlan, table_ofPlan, name, Listing.table_eq_of_perm fragments]
    refine ⟨table, ?_, ?_⟩
    · rw [symbols_ofPlan, symbols_ofPlan, table, name]
    · rw [symbolFile_ofPlan, symbolFile_ofPlan, name]

/-- Two functions, and two classes of which one has methods. -/
def rowModule : ModuleDecl where
  name := "m"
  author := none
  year := none
  functions := counterModule.functions ++ [⟨"clear", none, [], false, false, none, none⟩]
  classes := counterModule.classes ++ [⟨"Bare", []⟩]

/-- `rowModule` with everything the other way round. -/
def turnedModule : ModuleDecl where
  name := "m"
  author := none
  year := none
  functions := rowModule.functions.reverse
  classes := rowModule.classes.reverse.map fun c => ⟨c.name, c.methods.reverse⟩

theorem turnedModule_reordered : rowModule.Reordered turnedModule where
  name := rfl
  author := rfl
  year := rfl
  functions := (List.reverse_perm _).symm
  classes := by
    refine ⟨rowModule.classes.reverse, (List.reverse_perm _).symm, ?_⟩
    refine List.forall₂_map_right_iff.mpr (List.forall₂_same.mpr fun c _ => ?_)
    exact ⟨rfl, (List.reverse_perm _).symm⟩

theorem turnedModule_symbols :
    rowModule.Reordered turnedModule ∧
      ∃ a b, generateWith .standard rowModule = .ok a ∧
        generateWith .standard turnedModule = .ok b ∧ b.symbols = a.symbols := by
  obtain ⟨iff, same⟩ := @symbols_of_reordered .standard _ _ turnedModule_reordered
  obtain ⟨a, accepted⟩ : ∃ a, generateWith .standard rowModule = .ok a := ⟨_, rfl⟩
  obtain ⟨b, accepted'⟩ := iff.mp ⟨a, accepted⟩
  exact ⟨turnedModule_reordered, a, b, accepted, accepted', (same a b accepted accepted').2.1⟩

end Artifact

end BindingGen
