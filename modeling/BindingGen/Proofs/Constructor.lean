import BindingGen.Proofs.CallShape
import BindingGen.Proofs.Unit
import BindingGen.Proofs.Validation

/-!
# Which functions lose their receiver

A constructor is called through the type of its class, which supplies the receiver, so its shape
does not count it. Everything else is called through a registration, whose convention has to count
every argument. Deriving the shape asks for the name of a constructor and for an owner; writing the
source asks whether a class holds the function. Methods are given their owner by the class that
holds them, so for them both questions have one answer. Functions of the module keep the owner that
their descriptor came with.

Results:
1. `dropsReceiver_iff`: a planned function lost its receiver if and only if it is a constructor.
2. `units_perm`: the source of an accepted module has one unit for each function and method.
3. `receiverAgreement_iff`: in an accepted module exactly the functions that are written as
   constructors lost their receiver, if and only if no function of the module itself is a
   constructor by its name and owner.
4. `strayModule_disagrees`: a module function named `__init__` with an owner is accepted, and its
   entry point of one parameter is registered by the convention of none.
-/

namespace BindingGen

/-! ## Units -/

/-- A planned function as it is written: by itself or as the constructor of a class. -/
inductive SourceUnit where
  | function (plan : FunctionPlan)
  | maker (className : String) (plan : FunctionPlan)
  deriving DecidableEq, Repr

namespace SourceUnit

/-- The plan of the function that a unit is written for. -/
def plan : SourceUnit → FunctionPlan
  | function plan => plan
  | maker _ plan => plan

/-- Whether a unit makes the instances of a class. -/
def isMaker : SourceUnit → Bool
  | function _ => false
  | maker _ _ => true

/-- The fragments of a unit. -/
def fragments (names : NameScheme) : SourceUnit → List Fragment
  | function plan => plan.unitFragments names
  | maker className plan => plan.makerFragments names className

end SourceUnit

/-- The units of a class, its methods before its constructor. -/
def ClassPlan.units (plan : ClassPlan) : List SourceUnit :=
  plan.methods.map .function ++ plan.maker.toList.map (.maker plan.decl.name)

/-- The units of a module in the order of the file. -/
def ModulePlan.units (plan : ModulePlan) : List SourceUnit :=
  plan.functions.map .function ++ plan.classes.flatMap (·.units)

/-- The methods of a class that are written by themselves. -/
def ClassDecl.registered (c : ClassDecl) : List FunctionDecl :=
  c.methods.filter (!·.isConstructor)

/-- The functions of a module and the methods of its classes. -/
def ModuleDecl.callables (m : ModuleDecl) : List FunctionDecl :=
  m.functions ++ m.classes.flatMap (·.methods)

/-- The shape of a planned function is that of its signature without the receiver. -/
def FunctionPlan.DropsReceiver (plan : FunctionPlan) : Prop :=
  ∃ full, plan.decl.fullShape = .ok full ∧ full.withoutReceiver = some plan.shape

/-- Deriving shapes and writing the source agree on what a constructor is: the units without a
receiver are the ones that make instances, and what is registered counts every parameter that its
entry point declares. -/
structure ModulePlan.ReceiverAgreement (names : NameScheme) (plan : ModulePlan) : Prop where
  dropped_iff : ∀ unit ∈ plan.units, unit.plan.DropsReceiver ↔ unit.isMaker = true
  registered : ∀ unit ∈ plan.units, ∀ object entry shape,
    .functionObject object entry shape ∈ unit.fragments names →
      unit.plan.decl.fullShape = .ok shape
  agrees : ∀ unit ∈ plan.units, unit.isMaker = false →
    Agrees unit.plan.decl (unit.fragments names)

/-- `Accounts names m plan`: the units of a plan are written for the functions and methods of `m`,
one for each, and the entry points and registrations of the source are those of the units. -/
structure ModulePlan.Accounts (names : NameScheme) (m : ModuleDecl) (plan : ModulePlan) : Prop where
  callables : (plan.units.map (·.plan.decl)).Perm m.callables
  bindings : (plan.listing names).fragments.filter Fragment.isBinding =
    plan.units.flatMap fun unit => (unit.fragments names).filter Fragment.isBinding

/-! ## The shape of a constructor -/

namespace FunctionPlan

variable {plan : FunctionPlan}

/-- A planned function lost its receiver if and only if it is a constructor. -/
theorem dropsReceiver_iff (planned : ofDecl plan.decl = .ok plan) :
    plan.DropsReceiver ↔ plan.decl.isConstructor = true := by
  obtain ⟨-, shaped, -, -⟩ := ofDecl_eq_ok_iff.mp planned
  obtain ⟨full, fullShaped, rest⟩ := FunctionDecl.callShape_eq_ok_iff.mp shaped
  constructor
  · rintro ⟨other, otherShaped, dropped⟩
    cases otherShaped.symm.trans fullShaped
    by_contra ordinary
    rw [if_neg ordinary] at rest
    exact CallShape.withoutReceiver_ne dropped rest
  · intro constructor
    rw [if_pos constructor] at rest
    exact ⟨full, fullShaped, rest⟩

/-- A planned function has the full shape of its signature if and only if it is no constructor. -/
theorem fullShape_eq_shape_iff (planned : ofDecl plan.decl = .ok plan) :
    plan.decl.fullShape = .ok plan.shape ↔ plan.decl.isConstructor = false := by
  obtain ⟨-, shaped, -, -⟩ := ofDecl_eq_ok_iff.mp planned
  obtain ⟨full, fullShaped, rest⟩ := FunctionDecl.callShape_eq_ok_iff.mp shaped
  rw [fullShaped]
  cases constructor : plan.decl.isConstructor with
  | false =>
    rw [constructor, if_neg Bool.false_ne_true] at rest
    rw [rest]
    exact iff_of_true rfl rfl
  | true =>
    rw [constructor, if_pos rfl] at rest
    refine iff_of_false (fun same => ?_) Bool.noConfusion
    cases same
    exact CallShape.withoutReceiver_ne rest rfl

end FunctionPlan

/-- In a valid module at most one method of a class has the name of a constructor. -/
theorem ModuleDecl.constructors_le_one_of_validate {m : ModuleDecl} (valid : m.validate = .ok ())
    {c : ClassDecl} (member : c ∈ m.classes) : c.constructors.length ≤ 1 :=
  ((wellNamed_of_validate valid).classes c member).single

/-! ## The units of a plan -/

/-- A list of at most one element is what its last element makes. -/
theorem toList_getLast? {α : Type} {as : List α} (few : as.length ≤ 1) :
    as.getLast?.toList = as := by
  match as with
  | [] => rfl
  | [_] => rfl
  | _ :: _ :: rest => exact absurd few (by simp)

namespace ClassPlan

variable {c : ClassDecl} {plan : ClassPlan}

/-- The methods that are written by themselves are those that are no constructors, in order. -/
theorem methods_map_decl (planned : ofDecl c = .ok plan) :
    plan.methods.map (·.decl) = c.registered := by
  obtain ⟨-, plans, planned, -, methods⟩ := ofDecl_eq_ok_iff.mp planned
  rw [methods, ClassDecl.registered, ← FunctionPlan.map_decl_of_planned planned, List.filter_map]
  rfl

/-- With one method at most that has the name of a constructor, one plan at most is that of a
constructor. -/
theorem length_makers_le {plans : List FunctionPlan}
    (planned : List.Forall₂ (fun f p => FunctionPlan.ofDecl f = .ok p) c.methods plans)
    (single : c.constructors.length ≤ 1) :
    (plans.filter (·.decl.isConstructor)).length ≤ 1 := by
  refine Nat.le_trans ?_ single
  rw [ClassDecl.constructors, ← FunctionPlan.map_decl_of_planned planned, List.filter_map,
    List.length_map]
  refine (List.monotone_filter_right plans ?_).length_le
  intro p constructor
  exact (Bool.and_eq_true_iff.mp constructor).1

/-- With one constructor at most, the one that is written is all of them. -/
theorem maker_map_decl (planned : ofDecl c = .ok plan) (single : c.constructors.length ≤ 1) :
    plan.maker.toList.map (·.decl) = c.methods.filter (·.isConstructor) := by
  obtain ⟨-, plans, planned, maker, -⟩ := ofDecl_eq_ok_iff.mp planned
  rw [maker, toList_getLast? (length_makers_le planned single),
    ← FunctionPlan.map_decl_of_planned planned, List.filter_map]
  rfl

/-- The methods of a class are parted into those written by themselves and its constructor; with
one constructor at most none is lost. -/
theorem units_perm (planned : ofDecl c = .ok plan) (single : c.constructors.length ≤ 1) :
    (plan.units.map (·.plan.decl)).Perm c.methods := by
  have split : plan.units.map (·.plan.decl) =
      c.registered ++ c.methods.filter (·.isConstructor) := by
    rw [← methods_map_decl planned, ← maker_map_decl planned single, units, List.map_append,
      List.map_map, List.map_map]
    rfl
  rw [split]
  exact List.perm_append_comm.trans (List.filter_append_perm _ c.methods)

/-- In a class the units that make instances are those of constructors. -/
theorem unit_of_mem (planned : ofDecl c = .ok plan) {unit : SourceUnit}
    (member : unit ∈ plan.units) :
    FunctionPlan.ofDecl unit.plan.decl = .ok unit.plan ∧
      unit.plan.decl.isConstructor = unit.isMaker := by
  obtain ⟨-, plans, planned, maker, methods⟩ := ofDecl_eq_ok_iff.mp planned
  rcases List.mem_append.mp member with inMethods | inMaker
  · obtain ⟨p, found, rfl⟩ := List.mem_map.mp inMethods
    rw [methods] at found
    obtain ⟨inPlans, ordinary⟩ := List.mem_filter.mp found
    rw [Bool.not_eq_true'] at ordinary
    exact ⟨(FunctionPlan.planned_of_mem planned inPlans).1, ordinary⟩
  · obtain ⟨p, found, rfl⟩ := List.mem_map.mp inMaker
    rw [Option.mem_toList, maker] at found
    obtain ⟨inPlans, constructor⟩ := List.mem_filter.mp (List.mem_of_getLast? found)
    exact ⟨(FunctionPlan.planned_of_mem planned inPlans).1, constructor⟩

end ClassPlan

/-! ## Entry points and registrations in a source -/

namespace SourceUnit

/-- What a unit registers is the entry point of a function by its shape. -/
theorem shape_of_registered {names : NameScheme} {unit : SourceUnit} {object entry : String}
    {shape : CallShape} (member : .functionObject object entry shape ∈ unit.fragments names) :
    unit.isMaker = false ∧ shape = unit.plan.shape := by
  cases unit with
  | function plan =>
    have registered := List.mem_filterMap.mpr
      (⟨_, member, rfl⟩ : ∃ fragment ∈ plan.unitFragments names,
        fragment.registration? = some (object, entry, shape))
    rw [FunctionPlan.registrations_unit] at registered
    cases List.mem_singleton.mp registered
    exact ⟨rfl, rfl⟩
  | maker className plan =>
    simp [fragments, FunctionPlan.makerFragments, FunctionPlan.rawPart] at member

end SourceUnit

/-- Whether a fragment may stand between units. -/
def Fragment.isFrame : Fragment → Bool
  | header .. => true
  | includeFile _ => true
  | ifOpen _ => true
  | ifClose _ => true
  | blank => true
  | instanceLayout _ => true
  | mapOpen _ => true
  | mapEntry .. => true
  | mapClose => true
  | dictDefine .. => true
  | typeDefine .. => true
  | moduleDefine .. => true
  | register .. => true
  | _ => false

theorem isFrame_mapFragments {table dict : String} {entries : List Fragment}
    (rows : ∀ fragment ∈ entries, fragment.isFrame = true) :
    ∀ fragment ∈ mapFragments table dict entries, fragment.isFrame = true := by
  rw [mapFragments, List.forall_mem_append, List.forall_mem_append]
  exact ⟨⟨by simp [Fragment.isFrame], rows⟩, by simp [Fragment.isFrame]⟩

/-- Behind its units a class has its map and its type. -/
theorem ClassPlan.isFrame_closing (names : NameScheme) (plan : ClassPlan) :
    ∀ fragment ∈ plan.localsPart names ++ plan.typePart names, fragment.isFrame = true := by
  refine List.forall_mem_append.mpr ⟨?_, by simp [typePart, Fragment.isFrame]⟩
  unfold localsPart
  split
  · exact nofun
  · refine isFrame_mapFragments fun fragment member => ?_
    obtain ⟨_, _, rfl⟩ := List.mem_map.mp member
    rfl

theorem ModulePlan.isFrame_opening (names : NameScheme) (plan : ModulePlan) :
    ∀ fragment ∈ plan.opening names, fragment.isFrame = true := by
  simp [opening, includedFiles, Fragment.isFrame]

theorem ModulePlan.isFrame_ending (names : NameScheme) (plan : ModulePlan) :
    ∀ fragment ∈ plan.ending names, fragment.isFrame = true := by
  rw [ending, List.forall_mem_append, globalsPart]
  refine ⟨isFrame_mapFragments fun fragment member => ?_, by simp [Fragment.isFrame]⟩
  simp only [List.mem_cons, List.mem_append, List.mem_map] at member
  rcases member with rfl | ⟨_, _, rfl⟩ | ⟨_, _, rfl⟩
  · rfl
  · rfl
  · rfl

/-! ## What is read off a source -/

/-- `Reads read part found`: reading a source finds this in a part of it and goes on behind it. -/
def Reads {α : Type} (read : List Fragment → List α) (part : List Fragment) (found : List α) :
    Prop :=
  ∀ later, read (part ++ later) = found ++ read later

namespace Reads

variable {α β : Type} {read : List Fragment → List α}

/-- What is read off a whole source, if nothing is read off an empty one. -/
theorem eq {part : List Fragment} {found : List α} (reads : Reads read part found)
    (nothing : read [] = []) : read part = found := by
  have whole := reads []
  rwa [List.append_nil, nothing, List.append_nil] at whole

theorem append {a b : List Fragment} {first second : List α} (left : Reads read a first)
    (right : Reads read b second) : Reads read (a ++ b) (first ++ second) := by
  intro later
  rw [List.append_assoc, left, right, List.append_assoc]

theorem flatMap {bs : List β} {f : β → List Fragment} {found : β → List α}
    (each : ∀ b ∈ bs, Reads read (f b) (found b)) :
    Reads read (bs.flatMap f) (bs.flatMap found) := by
  induction bs with
  | nil => exact fun _ => rfl
  | cons b bs ih =>
    obtain ⟨first, rest⟩ := List.forall_mem_cons.mp each
    exact first.append (ih rest)

/-- Fragments that are passed over. -/
theorem skip {part : List Fragment}
    (passed : ∀ fragment ∈ part, ∀ later, read (fragment :: later) = read later) :
    Reads read part [] := by
  intro later
  induction part with
  | nil => rfl
  | cons fragment rest ih =>
    obtain ⟨first, others⟩ := List.forall_mem_cons.mp passed
    rw [List.cons_append, first, ih others]

end Reads

section Units

/-! What is read off a source is read off its units, if what stands between them is passed over. -/

variable {α : Type} {read : List Fragment → List α} {found : SourceUnit → List α}
  {names : NameScheme}
  (frame : ∀ fragment : Fragment, fragment.isFrame = true →
    ∀ later, read (fragment :: later) = read later)

include frame

theorem Reads.framed {part : List Fragment}
    (framed : ∀ fragment ∈ part, fragment.isFrame = true) : Reads read part [] :=
  .skip fun fragment member => frame fragment (framed fragment member)

theorem ClassPlan.reads_classFragments {plan : ClassPlan}
    (each : ∀ unit ∈ plan.units, Reads read (unit.fragments names) (found unit)) :
    Reads read (plan.classFragments names) (plan.units.flatMap found) := by
  have opening : Reads read [.instanceLayout (names.layout plan.decl.name), .blank] [] :=
    .framed frame (by simp [Fragment.isFrame])
  have units : Reads read (plan.units.flatMap (·.fragments names)) (plan.units.flatMap found) :=
    .flatMap each
  have closing := Reads.framed frame (plan.isFrame_closing names)
  have whole := (opening.append units).append closing
  rw [List.nil_append, List.append_nil, ClassPlan.units, List.flatMap_append,
    List.flatMap_map, List.flatMap_map, ← List.append_assoc, ← List.append_assoc] at whole
  exact whole

theorem ModulePlan.reads_listing {plan : ModulePlan}
    (each : ∀ unit ∈ plan.units, Reads read (unit.fragments names) (found unit)) :
    Reads read (plan.listing names).fragments (plan.units.flatMap found) := by
  obtain ⟨inFunctions, inClasses⟩ := List.forall_mem_append.mp each
  have opening := Reads.framed frame (plan.isFrame_opening names)
  have functions : Reads read (plan.functions.flatMap (·.unitFragments names))
      (plan.functions.flatMap fun p => found (.function p)) :=
    .flatMap fun p member => inFunctions _ (List.mem_map_of_mem member)
  have classes : Reads read (plan.classes.flatMap (·.classFragments names))
      (plan.classes.flatMap fun c => c.units.flatMap found) := by
    refine .flatMap fun c member => ClassPlan.reads_classFragments frame fun unit inClass => ?_
    exact inClasses unit (List.mem_flatMap_of_mem member inClass)
  have ending := Reads.framed frame (plan.isFrame_ending names)
  have whole := ((opening.append functions).append classes).append ending
  rw [List.nil_append, List.append_nil, ← fragments_listing] at whole
  rwa [units, List.flatMap_append, List.flatMap_map, List.flatMap_assoc]

end Units

/-- What is asked of fragments is answered by the units, if nothing between them matters. -/
theorem ModulePlan.filter_listing {q : Fragment → Bool}
    (plain : ∀ fragment, fragment.isFrame = true → q fragment = false) (names : NameScheme)
    (plan : ModulePlan) :
    (plan.listing names).fragments.filter q =
      plan.units.flatMap fun unit => (unit.fragments names).filter q := by
  have passed : ∀ fragment : Fragment, fragment.isFrame = true →
      ∀ later, (fragment :: later).filter q = later.filter q :=
    fun fragment framed _ => List.filter_cons_of_neg (Bool.eq_false_iff.mp (plain fragment framed))
  exact (reads_listing passed fun unit _ later => List.filter_append _ later).eq rfl

theorem Fragment.isBinding_of_isFrame (fragment : Fragment) (frame : fragment.isFrame = true) :
    fragment.isBinding = false := by
  cases fragment with
  | entryOpen => cases frame
  | functionObject => cases frame
  | _ => rfl

namespace ModulePlan

variable {m : ModuleDecl} {plan : ModulePlan}

/-- Where each class has one constructor at most, there is one unit for each function and method. -/
theorem units_perm (planned : ofDecl m = .ok plan)
    (single : ∀ c ∈ m.classes, c.constructors.length ≤ 1) :
    (plan.units.map (·.plan.decl)).Perm m.callables := by
  obtain ⟨-, functions, classes⟩ := ofDecl_eq_ok_iff.mp planned
  rw [units, ModuleDecl.callables, List.map_append, List.map_map]
  refine List.Perm.append (List.Perm.of_eq (FunctionPlan.map_decl_of_planned functions)) ?_
  rw [List.map_flatMap]
  exact flatMap_perm_of_forall₂ classes fun c declared _ found =>
    ClassPlan.units_perm found (single c declared)

/-- A unit is that of a function of the module itself, or one of a class, where constructors are
told by being the ones that make instances. -/
theorem unit_of_mem (planned : ofDecl m = .ok plan) {unit : SourceUnit}
    (member : unit ∈ plan.units) :
    FunctionPlan.ofDecl unit.plan.decl = .ok unit.plan ∧
      ((unit.isMaker = false ∧ unit.plan.decl ∈ m.functions) ∨
        unit.plan.decl.isConstructor = unit.isMaker) := by
  obtain ⟨-, functions, classes⟩ := ofDecl_eq_ok_iff.mp planned
  rcases List.mem_append.mp member with inFunctions | inClasses
  · obtain ⟨p, inPlan, rfl⟩ := List.mem_map.mp inFunctions
    obtain ⟨found, declared⟩ := FunctionPlan.planned_of_mem functions inPlan
    exact ⟨found, .inl ⟨rfl, declared⟩⟩
  · obtain ⟨p, inPlan, inClass⟩ := List.mem_flatMap.mp inClasses
    obtain ⟨found, -⟩ := ClassPlan.planned_of_mem classes inPlan
    obtain ⟨unitPlanned, told⟩ := ClassPlan.unit_of_mem found inClass
    exact ⟨unitPlanned, .inr told⟩

/-- In an accepted module the units account for every function and method, and deriving shapes
agrees with writing the source on what a constructor is if and only if no function of the module
itself has both the name of a constructor and an owner. -/
theorem receiverAgreement_iff (names : NameScheme) (accepted : ofValid m = .ok plan) :
    plan.Accounts names m.adopt ∧
      (plan.ReceiverAgreement names ↔ ∀ f ∈ m.functions, f.isConstructor = false) := by
  obtain ⟨valid, planned⟩ := ofValid_eq_ok_iff.mp accepted
  refine ⟨⟨units_perm planned fun c => ModuleDecl.constructors_le_one_of_validate valid,
    filter_listing Fragment.isBinding_of_isFrame names plan⟩, ?_, ?_⟩
  · -- A function of the module is written by itself, so that it must have kept its receiver.
    intro agreement f member
    obtain ⟨-, functions, -⟩ := ofDecl_eq_ok_iff.mp planned
    obtain ⟨p, inPlan, found⟩ := exists_of_mem_left functions member
    obtain ⟨rfl, -⟩ := FunctionPlan.ofDecl_eq_ok_iff.mp found
    have unit : SourceUnit.function p ∈ plan.units :=
      List.mem_append_left _ (List.mem_map_of_mem inPlan)
    rw [Bool.eq_false_iff, Ne, ← FunctionPlan.dropsReceiver_iff found]
    intro dropped
    exact Bool.false_ne_true ((agreement.dropped_iff _ unit).mp dropped)
  · intro ordinary
    -- Now making instances and being a constructor are the same for every unit.
    have told : ∀ unit ∈ plan.units, FunctionPlan.ofDecl unit.plan.decl = .ok unit.plan ∧
        unit.plan.decl.isConstructor = unit.isMaker := by
      intro unit member
      obtain ⟨unitPlanned, ⟨single, inModule⟩ | same⟩ := unit_of_mem planned member
      · exact ⟨unitPlanned, (ordinary _ inModule).trans single.symm⟩
      · exact ⟨unitPlanned, same⟩
    have full : ∀ unit ∈ plan.units, unit.isMaker = false →
        unit.plan.decl.fullShape = .ok unit.plan.shape := by
      intro unit member single
      obtain ⟨unitPlanned, same⟩ := told unit member
      exact (FunctionPlan.fullShape_eq_shape_iff unitPlanned).mpr (same.trans single)
    refine ⟨?_, ?_, ?_⟩
    · intro unit member
      obtain ⟨unitPlanned, same⟩ := told unit member
      rw [FunctionPlan.dropsReceiver_iff unitPlanned, same]
    · intro unit member object entry shape registered
      obtain ⟨single, rfl⟩ := SourceUnit.shape_of_registered registered
      exact full unit member single
    · intro unit member single
      have fits := FunctionDecl.fits_of_fullShape (full unit member single)
      cases unit with
      | function p => exact FunctionPlan.agrees_of_fits names (told _ member).1 fits
      | maker className p => cases single

end ModulePlan

/-! ## Two modules -/

theorem counterModule_agrees :
    ModulePlan.ofValid counterModule = .ok counterPlan ∧
      counterPlan.Accounts ⟨"m"⟩ counterModule.adopt ∧ counterPlan.ReceiverAgreement ⟨"m"⟩ := by
  have accepted : ModulePlan.ofValid counterModule = .ok counterPlan := rfl
  obtain ⟨accounts, agreement⟩ := ModulePlan.receiverAgreement_iff ⟨"m"⟩ accepted
  exact ⟨accepted, accounts, agreement.mpr (by decide)⟩

/-- A function with the name of a constructor and an owner. -/
def strayFunction : FunctionDecl :=
  ⟨constructorName, some "C", [receiver], false, false, none, none⟩

/-- The plan of `strayFunction`: it counts no argument. -/
def strayFunctionPlan : FunctionPlan := ⟨strayFunction, .fixed 0, [⟨receiver, .object⟩], []⟩

/-- A module that holds `strayFunction` itself. -/
def strayModule : ModuleDecl := ⟨"m", none, none, [strayFunction], []⟩

/-- The plan of `strayModule`. -/
def strayPlan : ModulePlan := ⟨strayModule, [strayFunctionPlan], []⟩

/-- The module is accepted, but its entry point of one parameter is registered by the convention
of none. -/
theorem strayModule_disagrees :
    ModulePlan.ofValid strayModule = .ok strayPlan ∧
      (strayPlan.listing ⟨"m"⟩).fragments.filter Fragment.isBinding =
        [.entryOpen "m_C___init__" (.fixed ["self_in"]),
          .functionObject "m_C___init___obj" "m_C___init__" (.fixed 0)] ∧
      ¬ strayPlan.ReceiverAgreement ⟨"m"⟩ := by
  refine ⟨rfl, rfl, fun agreement => ?_⟩
  have dropped : strayFunctionPlan.DropsReceiver := ⟨.fixed 1, rfl, rfl⟩
  have member : SourceUnit.function strayFunctionPlan ∈ strayPlan.units := List.mem_cons_self
  exact Bool.false_ne_true ((agreement.dropped_iff _ member).mp dropped)

end BindingGen
