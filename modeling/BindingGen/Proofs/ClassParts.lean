import BindingGen.Proofs.CallBounds
import BindingGen.Proofs.MapKeys

/-!
# The parts of a class keep in step

What a class comes to in the source is written by four loops and tests that do not look at each
other: the units of its methods, the entry point that makes its instances, the map of its methods,
and the type, whose slots refer to the last two. Planning takes the last method that makes instances
for the constructor, while a descriptor offers the first one. `InStep` says what the parts have to
be so that the type of a class offers what the class declares.

`classPart?` tells to which part of a class a fragment belongs; the units of methods belong to none.

Results:
1. `ClassPlan.maker_eq_initializer?`: with one constructor at most, the planned one is the first.
2. `FunctionPlan.checksArity`: the bounds that are checked before an instance is made are those of
   the constructor without its receiver.
3. `ClassPlan.inStep_of_adopt`: the parts of a planned class are in step.
4. `ModulePlan.classes_inStep`: in an accepted module every class is, and nothing outside of the
   classes makes instances or defines a type.
-/

namespace BindingGen

/-! ## Parts of a class -/

/-- A part of what a class comes to in a source. -/
inductive ClassPart where
  /-- The head of the entry point that makes instances, and the check of their arguments. -/
  | maker
  /-- The map of the methods with its dictionary. -/
  | locals
  | type
  deriving DecidableEq, Repr

/-- The part of a class that a fragment belongs to, if it is of one. -/
def Fragment.classPart? : Fragment → Option ClassPart
  | entryOpen _ .makeNew => some .maker
  | arityCheck .. => some .maker
  | mapOpen _ => some .locals
  | mapEntry .. => some .locals
  | mapClose => some .locals
  | dictDefine .. => some .locals
  | typeDefine .. => some .type
  | _ => none

/-- The fragments of a part, in order. -/
def ofPart (part : ClassPart) (fragments : List Fragment) : List Fragment :=
  fragments.filter (·.classPart? == some part)

/-- `ChecksArity f least most keywords`: these are the bounds for the arguments of a constructor,
which are one less than those of its parameters, since the receiver is not passed. -/
structure FunctionDecl.ChecksArity (f : FunctionDecl) (least : Nat) (most : Option Nat)
    (keywords : Bool) : Prop where
  least : least + 1 = f.required.length
  most : most.map (· + 1) =
    if f.varargs || f.varkw || f.hasKeywordOnly then none else some f.positional.length
  keywords : keywords = (f.varkw || f.hasKeywordOnly)

/-- `MadeBy fragments constructor slot`: of these fragments, the ones that make instances are one
entry point for this constructor, right behind whose head the bounds of the constructor are checked,
and the slot of the type refers to this entry point. Without a constructor there is none. -/
inductive MadeBy (fragments : List Fragment) : Option FunctionDecl → Option String → Prop
  | none : ofPart .maker fragments = [] → MadeBy fragments none none
  | some {f : FunctionDecl} {entry : String} {least : Nat} {most : Option Nat} {keywords : Bool} :
      ofPart .maker fragments = [.entryOpen entry .makeNew, .arityCheck least most keywords] →
      [.entryOpen entry .makeNew, .arityCheck least most keywords] <:+: fragments →
      f.ChecksArity least most keywords → MadeBy fragments (some f) (some entry)

/-- `RowFor names plan row`: the row has the name of the method, and points to the object that the
unit of this method registers. -/
def FunctionPlan.RowFor (names : NameScheme) (plan : FunctionPlan) (row : Fragment) : Prop :=
  ∃ object entry,
    (plan.listing names).fragments.filterMap Fragment.registration? =
      [(object, entry, plan.shape)] ∧
    row = .mapEntry plan.decl.name (.pointer object)

/-- `ListedIn names fragments methods slot`: of these fragments, the ones of maps are one map with a
row for each method in order and its dictionary, to which the slot of the type refers. Without
methods there is none. -/
inductive ListedIn (names : NameScheme) (fragments : List Fragment) :
    List FunctionPlan → Option String → Prop
  | none : ofPart .locals fragments = [] → ListedIn names fragments [] none
  | some {methods : List FunctionPlan} {rows : List Fragment} {table dict : String} :
      methods ≠ [] →
      ofPart .locals fragments = [.mapOpen table] ++ rows ++ [.mapClose, .dictDefine dict table] →
      [.mapOpen table] ++ rows ++ [.mapClose, .dictDefine dict table] <:+: fragments →
      List.Forall₂ (FunctionPlan.RowFor names) methods rows →
      ListedIn names fragments methods (some dict)

/-- `InStep names c plan makeNew locals`: the type of the class has these slots, and every part of
what the class comes to is in step with what it declares.

* `maker`, `methods`: what is planned is the constructor that the class with its owners set offers
  first, and the methods that do not have the name of a constructor, in order.
* `makeNew_iff`, `made`: there is a slot for the making of instances where the class declares a
  constructor, and it refers to the one entry point for it.
* `locals_iff`, `listed`: there is a slot for methods where the class declares others, and it refers
  to the map of these, whose rows point to the units of the methods.
* `keys`: no row is for a constructor. -/
structure ClassPlan.InStep (names : NameScheme) (c : ClassDecl) (plan : ClassPlan)
    (makeNew locals : Option String) : Prop where
  maker : plan.maker.map (·.decl) = c.adopt.initializer?
  methods : plan.methods.map (·.decl) = c.adopt.ordinary
  type : ofPart .type (plan.listing names).fragments =
    [.typeDefine (names.typeObject c.name) c.name makeNew locals]
  makeNew_iff : makeNew.isSome = true ↔ ∃ f ∈ c.methods, f.name = constructorName
  made : MadeBy (plan.listing names).fragments c.adopt.initializer? makeNew
  locals_iff : locals.isSome = true ↔ ∃ f ∈ c.methods, f.name ≠ constructorName
  units : (plan.methods.flatMap fun method => (method.listing names).fragments) <:+:
    (plan.listing names).fragments
  listed : ListedIn names (plan.listing names).fragments plan.methods locals
  keys : ∀ key value, .mapEntry key value ∈ (plan.listing names).fragments → key ≠ constructorName

/-- Every class of the module is in step, and the types and the entry points that make instances
stand in what the classes come to and nowhere else. -/
structure ModulePlan.ClassesInStep (names : NameScheme) (m : ModuleDecl) (plan : ModulePlan) :
    Prop where
  sections : ∃ before after,
    (plan.listing names).fragments =
      before ++ (plan.classes.flatMap fun p => (p.listing names).fragments) ++ after ∧
    ofPart .maker (before ++ after) = [] ∧ ofPart .type (before ++ after) = []
  classes : List.Forall₂
    (fun c p => ∃ makeNew locals, ClassPlan.InStep names c p makeNew locals) m.classes plan.classes

/-! ## Picking a part -/

theorem ofPart_append (part : ClassPart) (a b : List Fragment) :
    ofPart part (a ++ b) = ofPart part a ++ ofPart part b :=
  List.filter_append ..

theorem ofPart_flatMap {α : Type} (part : ClassPart) (as : List α) (f : α → List Fragment) :
    ofPart part (as.flatMap f) = as.flatMap fun a => ofPart part (f a) :=
  List.filter_flatMap

theorem ofPart_eq_nil {part : ClassPart} {fragments : List Fragment}
    (other : ∀ fragment ∈ fragments, fragment.classPart? ≠ some part) :
    ofPart part fragments = [] :=
  List.filter_eq_nil_iff.mpr fun fragment member same => other fragment member (eq_of_beq same)

theorem ofPart_eq_self {part : ClassPart} {fragments : List Fragment}
    (same : ∀ fragment ∈ fragments, fragment.classPart? = some part) :
    ofPart part fragments = fragments :=
  List.filter_eq_self.mpr fun fragment member => beq_iff_eq.mpr (same fragment member)

/-- A map is of one part. -/
theorem ofPart_mapFragments {part : ClassPart} {table dict : String} {entries : List Fragment}
    (other : part ≠ .locals) (rows : ∀ fragment ∈ entries, fragment.isMapEntry = true) :
    ofPart part (mapFragments table dict entries) = [] := by
  refine ofPart_eq_nil fun fragment member same => ?_
  simp only [mapFragments, List.mem_append, List.mem_cons, List.not_mem_nil, or_false] at member
  rcases member with (rfl | row) | rfl | rfl | rfl
  · cases same
    exact other rfl
  · cases fragment with
    | mapEntry =>
      cases same
      exact other rfl
    | _ => cases rows _ row
  · cases same
    exact other rfl
  · cases same
    exact other rfl
  · cases same

theorem Fragment.classPart?_of_isArgument {fragment : Fragment}
    (argument : fragment.isArgument = true) : fragment.classPart? = none := by
  cases fragment with
  | slotEnum | argTableOpen | argRow | argTableClose | argParse => rfl
  | _ => cases argument

namespace FunctionPlan

variable (names : NameScheme) (plan : FunctionPlan)

/-- The unit of a function is of no part of a class. -/
theorem ofPart_unit (part : ClassPart) : ofPart part (plan.unitFragments names) = [] := by
  refine ofPart_eq_nil fun fragment member => ?_
  suffices none : fragment.classPart? = none by
    rw [none]
    exact Option.some_ne_none part |>.symm
  simp only [unitFragments, List.mem_append, List.mem_cons, List.not_mem_nil, or_false] at member
  rcases member with (((rfl | rfl) | argument) | statement) | rfl | rfl | rfl
  · rfl
  · unfold entryParams
    split
    all_goals rfl
  · exact Fragment.classPart?_of_isArgument (isArgument_of_mem_argumentFragments argument)
  · rcases mem_statements statement with ⟨-, rfl⟩ | ⟨line, rfl⟩
    · rfl
    · rfl
  · rfl
  · rfl
  · rfl

/-- Of the unit of a constructor, its head and the check of its arguments make instances. -/
theorem ofPart_maker (className : String) :
    ofPart .maker (plan.makerFragments names className) =
      [.entryOpen (names.makeNew className) .makeNew,
        .arityCheck plan.shape.min plan.shape.max plan.shape.takesKeywords] := by
  have lines : ofPart .maker plan.rawPart = [] := by
    refine ofPart_eq_nil fun fragment member => ?_
    obtain ⟨line, -, rfl⟩ := List.mem_map.mp member
    exact nofun
  rw [makerFragments, ofPart_append, ofPart_append, lines]
  rfl

theorem ofPart_maker_of_ne {part : ClassPart} (other : part ≠ .maker) (className : String) :
    ofPart part (plan.makerFragments names className) = [] := by
  refine ofPart_eq_nil fun fragment member same => ?_
  simp only [makerFragments, rawPart, List.mem_append, List.mem_cons, List.mem_map,
    List.not_mem_nil, or_false] at member
  rcases member with ((rfl | rfl | rfl | rfl) | ⟨line, -, rfl⟩) | rfl | rfl | rfl
  all_goals cases same
  all_goals exact other rfl

variable {plan}

/-- The bounds that are checked for a constructor are those of its parameters but the receiver. -/
theorem checksArity (planned : ofDecl plan.decl = .ok plan)
    (makes : plan.decl.isConstructor = true) :
    plan.decl.ChecksArity plan.shape.min plan.shape.max plan.shape.takesKeywords := by
  obtain ⟨-, shaped, -, -⟩ := ofDecl_eq_ok_iff.mp planned
  obtain ⟨least, most, keywords, -, -⟩ := FunctionDecl.counts_of_callShape shaped
  rw [FunctionDecl.unpassed, if_pos makes] at least most
  refine ⟨least, ?_, keywords⟩
  rw [most, FunctionDecl.takesNamed, Bool.or_assoc]

end FunctionPlan

/-! ## A class -/

namespace ClassPlan

variable {names : NameScheme} {c : ClassDecl} {plan : ClassPlan}

theorem ofPart_localsPart (names : NameScheme) (plan : ClassPlan) :
    ofPart .locals (plan.localsPart names) =
      if plan.methods.isEmpty then []
      else [.mapOpen (names.localsTable plan.decl.name)] ++ plan.methods.map (·.mapEntry names) ++
        [.mapClose, .dictDefine (names.localsDict plan.decl.name)
          (names.localsTable plan.decl.name)] := by
  rw [localsPart]
  split
  · rfl
  · have rows : ofPart .locals (plan.methods.map (·.mapEntry names)) =
        plan.methods.map (·.mapEntry names) := by
      refine ofPart_eq_self fun fragment member => ?_
      obtain ⟨method, -, rfl⟩ := List.mem_map.mp member
      rfl
    rw [mapFragments, ofPart_append, ofPart_append, rows]
    rfl

theorem ofPart_localsPart_of_ne {part : ClassPart} (other : part ≠ .locals) :
    ofPart part (plan.localsPart names) = [] := by
  rw [localsPart]
  split
  · rfl
  · refine ofPart_mapFragments other fun fragment member => ?_
    obtain ⟨method, -, rfl⟩ := List.mem_map.mp member
    rfl

/-- The parts of a class are found where they are written. -/
theorem ofPart_classFragments (names : NameScheme) (plan : ClassPlan) (part : ClassPart) :
    ofPart part (plan.classFragments names) =
      (plan.maker.toList.flatMap fun maker =>
        ofPart part (maker.makerFragments names plan.decl.name)) ++
        ofPart part (plan.localsPart names) ++ ofPart part (plan.typePart names) := by
  have methods : ofPart part (plan.methods.flatMap (·.unitFragments names)) = [] := by
    rw [ofPart_flatMap, List.flatMap_eq_nil_iff]
    exact fun method _ => method.ofPart_unit names part
  have layout : ofPart part [.instanceLayout (names.layout plan.decl.name), .blank] = [] := rfl
  rw [classFragments, ofPart_append, ofPart_append, ofPart_append, ofPart_append, methods, layout,
    List.append_nil, List.nil_append, ofPart_flatMap]

/-- With one constructor at most, the last one is the first one. -/
theorem maker_eq_initializer? (planned : ofDecl c = .ok plan)
    (single : c.constructors.length ≤ 1) : plan.maker.map (·.decl) = c.initializer? := by
  rw [ClassDecl.initializer?, ← List.head?_filter, ← maker_map_decl planned single]
  cases plan.maker with
  | none => rfl
  | some maker => rfl

theorem madeBy_of_planned (planned : ofDecl c = .ok plan) (single : c.constructors.length ≤ 1) :
    MadeBy (plan.classFragments names) c.initializer?
      (plan.maker.map fun _ => names.makeNew plan.decl.name) := by
  have making := ofPart_classFragments names plan .maker
  have type : ofPart .maker (plan.typePart names) = [] := rfl
  rw [ofPart_localsPart_of_ne (by decide), type, List.append_nil, List.append_nil] at making
  rw [← maker_eq_initializer? planned single]
  cases found : plan.maker with
  | none =>
    rw [found] at making
    exact .none making
  | some maker =>
    have unit : SourceUnit.maker plan.decl.name maker ∈ plan.units := by
      rw [units, found]
      exact List.mem_append_right _ List.mem_cons_self
    obtain ⟨makerPlanned, makes⟩ := unit_of_mem planned unit
    rw [found, Option.toList_some, List.flatMap_cons, List.flatMap_nil, List.append_nil,
      FunctionPlan.ofPart_maker] at making
    refine .some making ?_ (FunctionPlan.checksArity makerPlanned makes)
    refine ⟨[.instanceLayout (names.layout plan.decl.name), .blank] ++
      plan.methods.flatMap (·.unitFragments names) ++ [.comment maker.decl.signature],
      [.allocate (names.layout plan.decl.name)] ++ maker.rawPart ++
        [.returnValue "MP_OBJ_FROM_PTR(self)", .blockClose, .blank] ++ plan.localsPart names ++
        plan.typePart names, ?_⟩
    simp only [classFragments, found, Option.toList_some, List.flatMap_cons, List.flatMap_nil,
      FunctionPlan.makerFragments, List.append_assoc, List.cons_append, List.nil_append]

theorem rowFor_mapEntry (method : FunctionPlan) : method.RowFor names (method.mapEntry names) := by
  refine ⟨names.functionObject method.decl, names.entry method.decl, ?_, rfl⟩
  rw [FunctionPlan.fragments_listing, FunctionPlan.registrations_unit]

theorem ofPart_locals (names : NameScheme) (plan : ClassPlan) :
    ofPart .locals (plan.classFragments names) =
      if plan.methods.isEmpty then []
      else [.mapOpen (names.localsTable plan.decl.name)] ++ plan.methods.map (·.mapEntry names) ++
        [.mapClose, .dictDefine (names.localsDict plan.decl.name)
          (names.localsTable plan.decl.name)] := by
  have maker : (plan.maker.toList.flatMap fun maker =>
      ofPart .locals (maker.makerFragments names plan.decl.name)) = [] :=
    List.flatMap_eq_nil_iff.mpr fun maker _ => maker.ofPart_maker_of_ne names (by decide) _
  have type : ofPart .locals (plan.typePart names) = [] := rfl
  rw [ofPart_classFragments, maker, type, List.nil_append, List.append_nil, ofPart_localsPart]

theorem listedIn (names : NameScheme) (plan : ClassPlan) :
    ListedIn names (plan.classFragments names) plan.methods
      (if plan.methods.isEmpty then none else some (names.localsDict plan.decl.name)) := by
  have parts := ofPart_locals names plan
  split
  · next empty =>
    rw [if_pos empty] at parts
    rw [List.isEmpty_iff.mp empty]
    exact .none parts
  · next some =>
    rw [if_neg some] at parts
    refine .some (fun none => some (List.isEmpty_iff.mpr none)) parts ?_ ?_
    · refine ⟨[.instanceLayout (names.layout plan.decl.name), .blank] ++
        plan.methods.flatMap (·.unitFragments names) ++
        plan.maker.toList.flatMap (·.makerFragments names plan.decl.name),
        [.blank] ++ plan.typePart names, ?_⟩
      simp only [classFragments, localsPart, if_neg some, mapFragments, List.append_assoc,
        List.cons_append, List.nil_append]
    · rw [List.forall₂_map_right_iff, List.forall₂_same]
      exact fun method _ => rowFor_mapEntry method

/-- The rows of a class have the names of its methods. -/
theorem key_of_mem_classFragments {key : String} {value : MapValue}
    (member : .mapEntry key value ∈ plan.classFragments names) :
    key ∈ plan.methods.map (·.decl.name) := by
  have row : .mapEntry key value ∈ ofPart .locals (plan.classFragments names) :=
    List.mem_filter.mpr ⟨member, rfl⟩
  rw [ofPart_locals] at row
  split at row
  · cases row
  · simp only [List.mem_append, List.mem_cons, List.mem_map, List.not_mem_nil, or_false] at row
    rcases row with (impossible | ⟨method, inPlan, same⟩) | impossible | impossible
    · cases impossible
    · cases same
      exact List.mem_map_of_mem inPlan
    · cases impossible
    · cases impossible

/-- Setting the owners of methods keeps their names. -/
theorem exists_mem_adopt_iff {P : String → Prop} :
    (∃ f ∈ c.adopt.methods, P f.name) ↔ ∃ f ∈ c.methods, P f.name := by
  simp [ClassDecl.adopt]

theorem owner_of_mem_adopt {f : FunctionDecl} (member : f ∈ c.adopt.methods) :
    f.owner = some c.name := by
  obtain ⟨g, -, rfl⟩ := List.mem_map.mp member
  rfl

theorem isSome_initializer?_adopt_iff :
    c.adopt.initializer?.isSome = true ↔ ∃ f ∈ c.methods, f.name = constructorName := by
  rw [ClassDecl.initializer?, List.find?_isSome,
    ← exists_mem_adopt_iff (P := fun name => name = constructorName)]
  refine exists_congr fun f => and_congr_right fun member => ?_
  rw [FunctionDecl.isConstructor, owner_of_mem_adopt member, Option.isSome_some, Bool.and_true,
    beq_iff_eq]

theorem ordinary_adopt_ne_nil_iff :
    c.adopt.ordinary ≠ [] ↔ ∃ f ∈ c.methods, f.name ≠ constructorName := by
  rw [ClassDecl.ordinary, Ne, List.filter_eq_nil_iff,
    ← exists_mem_adopt_iff (P := fun name => name ≠ constructorName)]
  simp

/-- What a planned class comes to is in step with what the class declares. -/
theorem inStep_of_adopt (names : NameScheme) (planned : ofDecl c.adopt = .ok plan)
    (named : c.adopt.WellNamed) :
    plan.InStep names c (plan.maker.map fun _ => names.makeNew c.name)
      (if plan.methods.isEmpty then none else some (names.localsDict c.name)) := by
  have decl : plan.decl = c.adopt := (ofDecl_eq_ok_iff.mp planned).1
  have name : plan.decl.name = c.name := by
    rw [decl]
    rfl
  have maker := maker_eq_initializer? planned named.single
  have methods : plan.methods.map (·.decl) = c.adopt.ordinary := by
    rw [methods_map_decl planned]
    exact ClassDecl.registered_eq_ordinary fun f member => owner_of_mem_adopt (c := c) member
  constructor
  case maker => exact maker
  case methods => exact methods
  case type =>
    have makers : (plan.maker.toList.flatMap fun maker =>
        ofPart .type (maker.makerFragments names plan.decl.name)) = [] :=
      List.flatMap_eq_nil_iff.mpr fun maker _ => maker.ofPart_maker_of_ne names (by decide) _
    rw [fragments_listing, ofPart_classFragments, makers, ofPart_localsPart_of_ne (by decide),
      List.nil_append, List.nil_append, ← name]
    rfl
  case makeNew_iff =>
    rw [← isSome_initializer?_adopt_iff, ← maker, Option.isSome_map, Option.isSome_map]
  case made =>
    rw [fragments_listing, ← name]
    exact madeBy_of_planned planned named.single
  case locals_iff =>
    rw [← ordinary_adopt_ne_nil_iff, ← methods, Ne, List.map_eq_nil_iff, ← List.isEmpty_iff]
    cases plan.methods.isEmpty with
    | true => simp
    | false => simp
  case units =>
    rw [fragments_listing]
    simp only [FunctionPlan.fragments_listing]
    exact ⟨[.instanceLayout (names.layout plan.decl.name), .blank],
      plan.maker.toList.flatMap (·.makerFragments names plan.decl.name) ++ plan.localsPart names ++
        plan.typePart names, by simp only [classFragments, List.append_assoc]⟩
  case listed =>
    rw [fragments_listing, ← name]
    exact listedIn names plan
  case keys =>
    intro key value member
    rw [fragments_listing] at member
    obtain ⟨method, inPlan, rfl⟩ := List.mem_map.mp (key_of_mem_classFragments member)
    have ordinary : method.decl ∈ c.adopt.ordinary := methods ▸ List.mem_map_of_mem inPlan
    exact bne_iff_ne.mp (List.mem_filter.mp ordinary).2

end ClassPlan

/-! ## A module -/

namespace ModulePlan

variable {m : ModuleDecl} {plan : ModulePlan}

/-- Between the classes and around them nothing is of a part but the map of the module. -/
theorem ofPart_around {part : ClassPart} (names : NameScheme) (plan : ModulePlan)
    (other : part ≠ .locals) :
    ofPart part (plan.opening names ++ plan.functions.flatMap (·.unitFragments names) ++
      plan.ending names) = [] := by
  have opening : ofPart part (plan.opening names) = [] :=
    ofPart_eq_nil (by simp [ModulePlan.opening, includedFiles, Fragment.classPart?])
  have functions : ofPart part (plan.functions.flatMap (·.unitFragments names)) = [] := by
    rw [ofPart_flatMap, List.flatMap_eq_nil_iff]
    exact fun function _ => function.ofPart_unit names part
  have globals : ofPart part (plan.globalsPart names) = [] := by
    rw [globalEntries_eq]
    exact ofPart_mapFragments other fun _ => isMapEntry_of_mem_globalEntries names plan
  rw [ofPart_append, ofPart_append, opening, functions, ending, ofPart_append, globals]
  rfl

/-- In an accepted module the parts of every class are in step. -/
theorem classes_inStep (accepted : ofValid m = .ok plan) : plan.ClassesInStep ⟨m.name⟩ m := by
  obtain ⟨valid, planned⟩ := ofValid_eq_ok_iff.mp accepted
  have named := ModuleDecl.wellNamed_of_validate valid
  obtain ⟨-, -, classes⟩ := ofDecl_eq_ok_iff.mp planned
  have sections : (plan.listing ⟨m.name⟩).fragments =
      plan.opening ⟨m.name⟩ ++ plan.functions.flatMap (·.unitFragments ⟨m.name⟩) ++
        (plan.classes.flatMap fun p => (p.listing ⟨m.name⟩).fragments) ++ plan.ending ⟨m.name⟩ := by
    rw [fragments_listing]
    simp only [ClassPlan.fragments_listing]
  refine ⟨⟨_, _, sections, ofPart_around _ plan (by decide), ofPart_around _ plan (by decide)⟩, ?_⟩
  have adopted := (List.forall₂_and_left _ _).mpr ⟨named.classes, classes⟩
  refine (List.forall₂_map_left_iff.mp adopted).imp ?_
  rintro c p ⟨classNamed, classPlanned⟩
  exact ⟨_, _, ClassPlan.inStep_of_adopt ⟨m.name⟩ classPlanned classNamed⟩

end ModulePlan

/-- The class of `counterModule` has a constructor and a method, so that its type has both slots. -/
theorem counterModule_inStep :
    ModulePlan.ofValid counterModule = .ok counterPlan ∧
      counterPlan.ClassesInStep ⟨"m"⟩ counterModule := by
  have accepted : ModulePlan.ofValid counterModule = .ok counterPlan := rfl
  exact ⟨accepted, ModulePlan.classes_inStep accepted⟩

end BindingGen
