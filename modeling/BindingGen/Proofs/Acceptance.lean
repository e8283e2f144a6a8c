import BindingGen.Proofs.Constructor
import BindingGen.Proofs.Symbol.Source

/-!
# What is accepted, and the first fault of what is not

Artifacts are made in one pass that stops at the first fault: the check of the module, then for each
function and method its shape and the annotations of its parameters. The pass is spread over three
levels, and a class takes its constructor out of the row of its methods. Still the fault is that of
the first function or method in the order of declaration which has one: `callables` is that order,
and `FirstFault` says what comes first in a module and in a function.

Results:
1. `FunctionPlan.ofDecl_eq_error_iff`: a function fails by its shape, or by the first parameter
   whose annotation asks for no kind.
2. `ModulePlan.ofDecl_eq_error_iff`: a module fails by the first of its functions and methods to
   fail, whatever class the method is in.
3. `ModulePlan.covers_of_ofDecl`: a plan that comes out has one entry for everything declared.
4. `generateWith_outcome`: when artifacts are made, which fault is reported otherwise, and what the
   plan holds.
-/

namespace BindingGen

/-! ## Faults in order -/

/-- Everything about a function can be translated: it has a shape, and every annotation of its
parameters asks for a kind of argument. -/
structure FunctionDecl.Supported (f : FunctionDecl) : Prop where
  shape : ∃ shape, f.callShape = .ok shape
  hints : ∀ p ∈ f.params, ∃ kind, ArgKind.ofHint p.typeHint = .ok kind

/-- `FirstFault f fault`: this is wrong first with a function. The shape comes before the
annotations, and these come in the order of the parameters. -/
inductive FunctionDecl.FirstFault (f : FunctionDecl) : Fault → Prop
  | shape {fault : Fault} : f.callShape = .error fault → FirstFault f fault
  | typeHint {shape : CallShape} {before after : List Parameter} {p : Parameter}
      {typeHint : String} :
      f.callShape = .ok shape → f.params = before ++ p :: after →
      (∀ q ∈ before, ∃ kind, ArgKind.ofHint q.typeHint = .ok kind) →
      p.typeHint = some typeHint → (∀ kind, ArgKind.ofHint p.typeHint ≠ .ok kind) →
      FirstFault f (.unsupportedHint f.qualifiedName p.name (Text.trim typeHint))

/-- `FirstFault m fault`: this is wrong first with a module. Its check comes before its functions
and methods, and these come in the order of declaration. -/
inductive ModuleDecl.FirstFault (m : ModuleDecl) : Fault → Prop
  | invalid {fault : Fault} : m.validate = .error fault → FirstFault m fault
  | callable {before after : List FunctionDecl} {f : FunctionDecl} {fault : Fault} :
      m.validate = .ok () → m.callables = before ++ f :: after →
      (∀ g ∈ before, g.Supported) → f.FirstFault fault → FirstFault m fault

/-! ## Complete plans -/

/-- `Covers c plan`: the plan of a class has one entry for each method in the order of declaration,
the constructor apart, and each entry has one slot for each parameter in order. -/
structure ClassPlan.Covers (c : ClassDecl) (plan : ClassPlan) : Prop where
  decl : plan.decl = c
  methods : plan.methods.map (·.decl) = c.methods.filter (!·.isConstructor)
  maker : plan.maker.toList.map (·.decl) = c.methods.filter (·.isConstructor)
  slots : ∀ p ∈ plan.methods ++ plan.maker.toList, p.args.map (·.param) = p.decl.params

/-- `Covers m plan`: the plan of a module has one entry for each function and each class in the
order of declaration. -/
structure ModulePlan.Covers (m : ModuleDecl) (plan : ModulePlan) : Prop where
  decl : plan.decl = m
  functions : plan.functions.map (·.decl) = m.functions
  slots : ∀ p ∈ plan.functions, p.args.map (·.param) = p.decl.params
  classes : List.Forall₂ ClassPlan.Covers m.classes plan.classes

/-! ## Functions -/

namespace ArgKind

/-- An annotation that asks for no kind is reported without the blanks around it. -/
theorem ofHint_eq_error_iff {typeHint : Option String} {reported : String} :
    ofHint typeHint = .error reported ↔
      (∀ kind, ofHint typeHint ≠ .ok kind) ∧
        ∃ text, typeHint = some text ∧ reported = Text.trim text := by
  constructor
  · intro failed
    refine ⟨fun kind resolved => ?_, ?_⟩
    · cases failed.symm.trans resolved
    · cases typeHint with
      | none => cases failed
      | some text =>
        rw [ofHint] at failed
        split at failed
        · cases failed
        · cases failed
          exact ⟨text, rfl, rfl⟩
  · rintro ⟨unresolved, text, rfl, rfl⟩
    rw [ofHint] at unresolved ⊢
    split
    · next kind found =>
      rw [found] at unresolved
      exact absurd rfl (unresolved kind)
    · rfl

end ArgKind

namespace FunctionPlan

variable {f : FunctionDecl} {fault : Fault}

theorem exists_slot_eq_ok_iff {p : Parameter} :
    (∃ argument, slot f p = .ok argument) ↔ ∃ kind, ArgKind.ofHint p.typeHint = .ok kind := by
  constructor
  · rintro ⟨argument, resolved⟩
    exact ⟨argument.kind, mapError_eq_ok_iff.mp (slot_eq_ok_iff.mp resolved).2⟩
  · rintro ⟨kind, resolved⟩
    exact ⟨⟨p, kind⟩, slot_eq_ok_iff.mpr ⟨rfl, mapError_eq_ok_iff.mpr resolved⟩⟩

/-- The fault of a slot names the function, the parameter and the annotation. -/
theorem slot_eq_error_iff {p : Parameter} :
    slot f p = .error fault ↔
      (∀ kind, ArgKind.ofHint p.typeHint ≠ .ok kind) ∧
        ∃ text, p.typeHint = some text ∧
          fault = .unsupportedHint f.qualifiedName p.name (Text.trim text) := by
  have unresolved : slot f p = .error fault ↔ ArgKind.ofParameter f p = .error fault := by
    rw [slot, bind_eq_error_iff]
    constructor
    · rintro (failed | ⟨_, _, impossible⟩)
      · exact failed
      · cases impossible
    · exact .inl
  rw [unresolved, ArgKind.ofParameter, mapError_eq_error_iff]
  simp only [ArgKind.ofHint_eq_error_iff]
  constructor
  · rintro ⟨_, ⟨none, text, found, rfl⟩, rfl⟩
    exact ⟨none, text, found, rfl⟩
  · rintro ⟨none, text, found, rfl⟩
    exact ⟨_, ⟨none, text, found, rfl⟩, rfl⟩

theorem exists_ofDecl_eq_ok_iff : (∃ plan, ofDecl f = .ok plan) ↔ f.Supported := by
  constructor
  · rintro ⟨plan, planned⟩
    obtain ⟨-, shaped, slots, -⟩ := ofDecl_eq_ok_iff.mp planned
    refine ⟨⟨_, shaped⟩, fun p member => ?_⟩
    obtain ⟨argument, _, resolved⟩ := exists_of_mem_left slots member
    exact exists_slot_eq_ok_iff.mp ⟨argument, resolved⟩
  · rintro ⟨⟨shape, shaped⟩, hints⟩
    obtain ⟨args, resolved⟩ := exists_mapM_eq_ok_iff.mpr fun p member =>
      exists_slot_eq_ok_iff.mpr (hints p member)
    exact ⟨⟨f, shape, args, _⟩,
      ofDecl_eq_ok_iff.mpr ⟨rfl, shaped, mapM_eq_ok_iff.mp resolved, rfl⟩⟩

/-- A function that has no plan fails by what is wrong first with it. -/
theorem ofDecl_eq_error_iff : ofDecl f = .error fault ↔ f.FirstFault fault := by
  rw [ofDecl, bind_eq_error_iff]
  constructor
  · rintro (failed | ⟨shape, shaped, failed⟩)
    · exact .shape failed
    · rcases bind_eq_error_iff.mp failed with failed | ⟨_, _, impossible⟩
      · obtain ⟨before, p, after, split, resolved, failed⟩ := mapM_eq_error_iff.mp failed
        obtain ⟨unresolved, text, found, rfl⟩ := slot_eq_error_iff.mp failed
        exact .typeHint shaped split
          (fun q member => exists_slot_eq_ok_iff.mp (resolved q member)) found unresolved
      · cases impossible
  · intro first
    cases first with
    | shape failed => exact .inl failed
    | typeHint shaped split resolved found unresolved =>
      refine .inr ⟨_, shaped, bind_eq_error_iff.mpr (.inl (mapM_eq_error_iff.mpr ?_))⟩
      exact ⟨_, _, _, split, fun q member => exists_slot_eq_ok_iff.mpr (resolved q member),
        slot_eq_error_iff.mpr ⟨unresolved, _, found, rfl⟩⟩

end FunctionPlan

/-! ## Classes and modules -/

namespace ClassPlan

variable {c : ClassDecl} {fault : Fault}

/-- A class fails where its methods fail: taking the constructor out of the row comes later. -/
theorem ofDecl_eq_error_iff :
    ofDecl c = .error fault ↔ c.methods.mapM FunctionPlan.ofDecl = .error fault := by
  rw [ofDecl, bind_eq_error_iff]
  constructor
  · rintro (failed | ⟨_, _, impossible⟩)
    · exact failed
    · cases impossible
  · exact .inl

theorem exists_ofDecl_eq_ok_iff :
    (∃ plan, ofDecl c = .ok plan) ↔ ∃ plans, c.methods.mapM FunctionPlan.ofDecl = .ok plans := by
  constructor
  · rintro ⟨plan, planned⟩
    obtain ⟨-, plans, planned, -, -⟩ := ofDecl_eq_ok_iff.mp planned
    exact ⟨plans, mapM_eq_ok_iff.mpr planned⟩
  · rintro ⟨plans, planned⟩
    exact ⟨⟨c, _, _⟩, ofDecl_eq_ok_iff.mpr ⟨rfl, plans, mapM_eq_ok_iff.mp planned, rfl, rfl⟩⟩

theorem covers_of_ofDecl {plan : ClassPlan} (planned : ofDecl c = .ok plan)
    (single : c.constructors.length ≤ 1) : Covers c plan := by
  refine ⟨(ofDecl_eq_ok_iff.mp planned).1, methods_map_decl planned,
    maker_map_decl planned single, fun p member => ?_⟩
  -- Every entry of the plan is written by some unit of the class.
  have unit : ∃ unit ∈ plan.units, unit.plan = p := by
    rcases List.mem_append.mp member with inMethods | inMaker
    · exact ⟨_, List.mem_append_left _ (List.mem_map_of_mem inMethods), rfl⟩
    · exact ⟨_, List.mem_append_right _ (List.mem_map_of_mem inMaker), rfl⟩
  obtain ⟨unit, inUnits, rfl⟩ := unit
  exact FunctionPlan.args_map_param (unit_of_mem planned inUnits).1

end ClassPlan

namespace ModulePlan

variable {m : ModuleDecl} {fault : Fault}

theorem failsFirst_classes {cs : List ClassDecl} :
    FailsFirst ClassPlan.ofDecl cs fault ↔
      FailsFirst FunctionPlan.ofDecl (cs.flatMap (·.methods)) fault := by
  rw [failsFirst_flatMap]
  simp only [FailsFirst, ClassPlan.exists_ofDecl_eq_ok_iff, ClassPlan.ofDecl_eq_error_iff]

/-- A module has a plan where all its functions and methods have one. -/
theorem exists_ofDecl_eq_ok_iff :
    (∃ plan, ofDecl m = .ok plan) ↔ ∀ f ∈ m.callables, f.Supported := by
  simp only [ModuleDecl.callables, List.forall_mem_append, List.forall_mem_flatMap,
    ← FunctionPlan.exists_ofDecl_eq_ok_iff, ← exists_mapM_eq_ok_iff,
    ← ClassPlan.exists_ofDecl_eq_ok_iff]
  constructor
  · rintro ⟨plan, planned⟩
    obtain ⟨-, functions, classes⟩ := ofDecl_eq_ok_iff.mp planned
    exact ⟨⟨_, mapM_eq_ok_iff.mpr functions⟩, _, mapM_eq_ok_iff.mpr classes⟩
  · rintro ⟨⟨functions, first⟩, classes, second⟩
    exact ⟨⟨m, functions, classes⟩,
      ofDecl_eq_ok_iff.mpr ⟨rfl, mapM_eq_ok_iff.mp first, mapM_eq_ok_iff.mp second⟩⟩

/-- A module without a plan fails by the first of its functions and methods that fails. -/
theorem ofDecl_eq_error_iff :
    ofDecl m = .error fault ↔ FailsFirst FunctionPlan.ofDecl m.callables fault := by
  rw [ModuleDecl.callables, failsFirst_append, ← failsFirst_classes, ← mapM_eq_error_iff,
    ← mapM_eq_error_iff, ← exists_mapM_eq_ok_iff, ofDecl, bind_eq_error_iff]
  refine or_congr_right ?_
  constructor
  · rintro ⟨functions, first, failed⟩
    rcases bind_eq_error_iff.mp failed with failed | ⟨_, _, impossible⟩
    · exact ⟨⟨functions, first⟩, failed⟩
    · cases impossible
  · rintro ⟨⟨functions, first⟩, failed⟩
    exact ⟨functions, first, bind_eq_error_iff.mpr (.inl failed)⟩

/-- The plan of a module with one constructor at most in each class leaves nothing out. -/
theorem covers_of_ofDecl {plan : ModulePlan} (planned : ofDecl m = .ok plan)
    (single : ∀ c ∈ m.classes, c.constructors.length ≤ 1) : plan.Covers m := by
  obtain ⟨decl, functions, classes⟩ := ofDecl_eq_ok_iff.mp planned
  refine ⟨decl, FunctionPlan.map_decl_of_planned functions, fun p member => ?_, ?_⟩
  · exact FunctionPlan.args_map_param (FunctionPlan.planned_of_mem functions member).1
  · refine ((List.forall₂_and_left _ _).mpr ⟨single, classes⟩).imp ?_
    rintro c classPlan ⟨few, found⟩
    exact ClassPlan.covers_of_ofDecl found few

/-- A module is turned down for what is wrong first with it. -/
theorem ofValid_eq_error_iff : ofValid m = .error fault ↔ m.adopt.FirstFault fault := by
  rw [ofValid, bind_eq_error_iff]
  constructor
  · rintro (failed | ⟨⟨⟩, valid, failed⟩)
    · exact .invalid failed
    · obtain ⟨before, f, after, split, planned, failed⟩ := ofDecl_eq_error_iff.mp failed
      exact .callable valid split
        (fun g member => FunctionPlan.exists_ofDecl_eq_ok_iff.mp (planned g member))
        (FunctionPlan.ofDecl_eq_error_iff.mp failed)
  · intro first
    cases first with
    | invalid failed => exact .inl failed
    | callable valid split supported failed =>
      refine .inr ⟨(), valid, ofDecl_eq_error_iff.mpr ⟨_, _, _, split, ?_, ?_⟩⟩
      · exact fun g member => FunctionPlan.exists_ofDecl_eq_ok_iff.mpr (supported g member)
      · exact FunctionPlan.ofDecl_eq_error_iff.mpr failed

end ModulePlan

namespace Artifact

variable {layout : Layout} {m : ModuleDecl}

theorem generateWith_of_ok {plan : ModulePlan} (planned : ModulePlan.ofValid m = .ok plan) :
    generateWith layout m = .ok (ofPlan layout plan) := by
  rw [generateWith, planned]
  rfl

theorem generateWith_eq_error_iff {fault : Fault} :
    generateWith layout m = .error fault ↔ ModulePlan.ofValid m = .error fault := by
  rw [generateWith]
  cases ModulePlan.ofValid m with
  | error first =>
    constructor
    · rintro ⟨⟩
      rfl
    · rintro ⟨⟩
      rfl
  | ok plan =>
    refine iff_of_false ?_ ?_
    · intro failed
      cases failed
    · intro failed
      cases failed

/-- In any layout, artifacts are made of a module if and only if with the owners of its methods set
it is valid and everything about its functions and methods can be translated. Otherwise the fault is
what is wrong first with it, and what is made comes from a plan that leaves nothing out. -/
theorem generateWith_outcome (layout : Layout) (m : ModuleDecl) :
    ((∃ artifact, generateWith layout m = .ok artifact) ↔
      m.adopt.validate = .ok () ∧ ∀ f ∈ m.adopt.callables, f.Supported) ∧
    (∀ fault, generateWith layout m = .error fault ↔ m.adopt.FirstFault fault) ∧
    ∀ artifact, generateWith layout m = .ok artifact →
      ∃ plan, ModulePlan.ofDecl m.adopt = .ok plan ∧ artifact = ofPlan layout plan ∧
        plan.Covers m.adopt := by
  refine ⟨?_, fun fault => ?_, fun artifact accepted => ?_⟩
  · rw [← ModulePlan.exists_ofDecl_eq_ok_iff]
    constructor
    · rintro ⟨artifact, accepted⟩
      obtain ⟨plan, planned, -⟩ := generateWith_eq_ok accepted
      obtain ⟨valid, planned⟩ := ModulePlan.ofValid_eq_ok_iff.mp planned
      exact ⟨valid, plan, planned⟩
    · rintro ⟨valid, plan, planned⟩
      exact ⟨_, generateWith_of_ok (ModulePlan.ofValid_eq_ok_iff.mpr ⟨valid, planned⟩)⟩
  · rw [generateWith_eq_error_iff, ModulePlan.ofValid_eq_error_iff]
  · obtain ⟨plan, planned, rfl⟩ := generateWith_eq_ok accepted
    obtain ⟨valid, planned⟩ := ModulePlan.ofValid_eq_ok_iff.mp planned
    exact ⟨plan, planned, rfl, ModulePlan.covers_of_ofDecl planned fun c =>
      ModuleDecl.constructors_le_one_of_validate valid⟩

/-- Of the faults of two methods that of the earlier one is reported, be it a constructor or not. -/
example : generate ⟨"m", none, none, [], [⟨"C",
    [⟨"step", none, [receiver, ⟨"x", .positional, none, some " float "⟩], false, false, none, none⟩,
      ⟨constructorName, none, [], false, false, none, none⟩]⟩]⟩ =
    .error (.unsupportedHint "C.step" "x" "float") := rfl

end Artifact

end BindingGen
