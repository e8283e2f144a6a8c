import BindingGen.Proofs.Constructor
import BindingGen.Proofs.Initializer
import BindingGen.Proofs.NameScheme
import BindingGen.Proofs.Reference

/-!
# Where the text of a descriptor ends up

Outside of comments and the lines of C that a documentation carries, a source is made of fixed text,
names and numbers. Names are put together from those of the module, of classes, functions and
parameters, which are identifiers where the module is valid, and from fixed pieces. One more text
goes into them: the owner of a function. Methods are given their class as their owner, but a
function of the module itself keeps the owner that came with it, and no check reads it.

Results:
1. `Literal.initializerText`: an initializer holds a number or an identifier at most.
2. `FunctionPlan.clean_unit_iff`: the unit of a function is clean if and only if its owner fits.
3. `ModulePlan.clean_iff`: the source of a valid module is clean if and only if the owners of the
   functions of the module itself fit; `ownedModule_not_clean` is a valid module where one does not.
-/

namespace BindingGen

open Text (isIdentifier allWord allWord_of_isIdentifier isIdentifier_append)

/-! ## What a fragment may hold -/

/-- Decimal digits, with a minus sign before them or without. -/
def IsDecimal (text : String) : Prop :=
  ∃ digits : List Char, digits ≠ [] ∧ (∀ c ∈ digits, c.isDigit = true) ∧
    (text.toList = digits ∨ text.toList = '-' :: digits)

/-- The initializers that hold no text of a descriptor. -/
def fixedInitializers : List String :=
  ["\x7b .u_obj = MP_OBJ_NULL \x7d", "\x7b .u_bool = true \x7d", "\x7b .u_bool = false \x7d",
    "\x7b .u_rom_obj = MP_ROM_TRUE \x7d", "\x7b .u_rom_obj = MP_ROM_FALSE \x7d"]

/-- An initializer is fixed text around a decimal integer, an identifier or nothing. -/
inductive InitializerText : String → Prop
  | fixed {text : String} : text ∈ fixedInitializers → InitializerText text
  | int {number : String} : IsDecimal number →
      InitializerText ("\x7b .u_int = " ++ number ++ " \x7d")
  | intObject {number : String} : IsDecimal number →
      InitializerText ("\x7b .u_rom_obj = MP_ROM_INT(" ++ number ++ ") \x7d")
  | stringObject {name : String} : isIdentifier name = true →
      InitializerText ("\x7b .u_rom_obj = MP_ROM_QSTR(MP_QSTR_" ++ name ++ ") \x7d")

/-- The text of a placeholder is an identifier, or two of them with a point in between. -/
def PlaceholderText (what : String) : Prop :=
  isIdentifier what = true ∨
    ∃ owner name, isIdentifier owner = true ∧ isIdentifier name = true ∧
      what = owner ++ "." ++ name

/-- The parameters of an entry point are named by identifiers. -/
def EntryParams.Clean : EntryParams → Prop
  | fixed names => ∀ name ∈ names, isIdentifier name = true
  | _ => True

/-- What an entry of a map refers to is named by an identifier. -/
def MapValue.Clean : MapValue → Prop
  | pointer target => isIdentifier target = true
  | string name => isIdentifier name = true

/-- Every name in a fragment is an identifier, and its other texts are fixed or confined to numbers
and identifiers. Comments and the lines of C that a documentation carries may hold anything. -/
def Fragment.Clean : Fragment → Prop
  | header _ _ _ => True
  | includeFile file => file ∈ ModulePlan.includedFiles
  | ifOpen condition => isIdentifier condition = true
  | ifClose condition => isIdentifier condition = true
  | blank => True
  | comment _ => True
  | entryOpen name params => isIdentifier name = true ∧ params.Clean
  | slotEnum slots => ∀ slot ∈ slots, isIdentifier slot = true
  | argTableOpen => True
  | argRow row =>
    isIdentifier row.name = true ∧ ∀ text, row.initializer = some text → InitializerText text
  | argTableClose => True
  | argParse _ => True
  | arityCheck _ _ _ => True
  | allocate layout => isIdentifier layout = true
  | placeholder what => PlaceholderText what
  | raw _ => True
  | returnValue value => value = "MP_OBJ_FROM_PTR(self)"
  | blockClose => True
  | functionObject object entry _ => isIdentifier object = true ∧ isIdentifier entry = true
  | instanceLayout name => isIdentifier name = true
  | mapOpen name => isIdentifier name = true
  | mapEntry key value => isIdentifier key = true ∧ value.Clean
  | mapClose => True
  | dictDefine name table => isIdentifier name = true ∧ isIdentifier table = true
  | typeDefine name className makeNew locals =>
    isIdentifier name = true ∧ isIdentifier className = true ∧
      (∀ entry, makeNew = some entry → isIdentifier entry = true) ∧
      ∀ dict, locals = some dict → isIdentifier dict = true
  | moduleDefine name globals => isIdentifier name = true ∧ isIdentifier globals = true
  | register module object condition =>
    isIdentifier module = true ∧ isIdentifier object = true ∧ isIdentifier condition = true

/-- The owner of a function may go into names: it is made of word characters, and where the
placeholder of the function spells it, it is an identifier. -/
def FunctionDecl.OwnerFits (f : FunctionDecl) : Prop :=
  ∀ owner, f.owner = some owner →
    allWord owner = true ∧ ((f.doc.map rawLines).getD [] = [] → isIdentifier owner = true)

theorem FunctionDecl.ownerFits_of_isIdentifier {f : FunctionDecl}
    (identifier : ∀ owner, f.owner = some owner → isIdentifier owner = true) : f.OwnerFits :=
  fun owner owned =>
    ⟨allWord_of_isIdentifier (identifier owner owned), fun _ => identifier owner owned⟩

/-! ## Numbers, initializers and placeholders -/

theorem isDecimal_int (n : Int) : IsDecimal (toString n) := by
  have digits := Decimal.areDigits_toDigits
  cases n with
  | ofNat n => exact ⟨Nat.toDigits 10 n, Nat.toDigits_ne_nil, digits n, .inl Nat.toList_repr⟩
  | negSucc n =>
    refine ⟨Nat.toDigits 10 n.succ, Nat.toDigits_ne_nil, digits n.succ, .inr ?_⟩
    show ("-" ++ n.succ.repr).toList = _
    rw [String.toList_append, Nat.toList_repr]
    rfl

theorem braced (before value after : String) :
    "\x7b " ++ (before ++ value ++ after) ++ " \x7d" =
      ("\x7b " ++ before) ++ value ++ (after ++ " \x7d") := by
  simp only [String.append_assoc]

theorem Initializer.initializerText {init : Initializer}
    (string : ∀ content, init = .stringObject content → isIdentifier content = true) :
    InitializerText init.text := by
  cases init with
  | null => exact .fixed (by decide)
  | bool b =>
    cases b with
    | true => exact .fixed (by decide)
    | false => exact .fixed (by decide)
  | boolObject b =>
    cases b with
    | true => exact .fixed (by decide)
    | false => exact .fixed (by decide)
  | int n =>
    rw [text, member_int, ← String.append_assoc]
    exact .int (isDecimal_int n)
  | intObject n =>
    rw [text, member_intObject, braced]
    exact .intObject (isDecimal_int n)
  | stringObject content =>
    rw [text, member_stringObject, braced]
    exact .stringObject (string content rfl)

/-- Whatever a default is, its initializer is confined to a number or an identifier. -/
theorem Literal.initializerText (value : Literal) (kind : ArgKind) :
    InitializerText (value.initializer kind).text := by
  refine Initializer.initializerText fun content chosen => ?_
  unfold initializer at chosen
  cases constant : value.constant? kind with
  | none =>
    rw [constant] at chosen
    cases chosen
  | some held =>
    rw [constant] at chosen
    cases chosen
    exact (constant?_eq_stringObject_iff.mp constant).2.2

/-- The point in the text of a placeholder parts the owner from the name. -/
theorem placeholderText_qualifiedName_iff {f : FunctionDecl} (named : isIdentifier f.name = true) :
    PlaceholderText f.qualifiedName ↔
      ∀ owner, f.owner = some owner → isIdentifier owner = true := by
  have noPoint : ∀ {s : String}, isIdentifier s = true → '.' ∉ s.toList := fun identifier =>
    Text.not_mem_of_allWord (allWord_of_isIdentifier identifier) (by decide)
  unfold FunctionDecl.qualifiedName
  cases f.owner with
  | none => exact iff_of_true (.inl named) nofun
  | some owner =>
    constructor
    · rintro (identifier | ⟨first, second, firstFits, secondFits, same⟩) _ ⟨⟩
      · refine absurd ?_ (noPoint identifier)
        simp
      · have chars := congrArg String.toList same
        simp only [String.toList_append, List.append_assoc] at chars
        have parted := (List.append_cons_inj_of_notMem (noPoint firstFits)
          (noPoint secondFits)).mp chars.symm
        rw [← String.toList_injective parted.1]
        exact firstFits
    · intro fits
      exact .inr ⟨owner, f.name, fits owner rfl, named, rfl⟩

/-! ## Units -/

namespace FunctionPlan

variable {names : NameScheme} {f : FunctionDecl} {plan : FunctionPlan}

theorem isIdentifier_of_mem_args (named : f.WellNamed) (planned : ofDecl f = .ok plan)
    {slot : ArgSlot} (member : slot ∈ plan.args) : isIdentifier slot.param.name = true := by
  refine named.params slot.param ?_
  rw [← args_map_param planned]
  exact List.mem_map_of_mem member

theorem clean_row {slot : ArgSlot} (named : isIdentifier slot.param.name = true) :
    (Fragment.argRow slot.row).Clean := by
  refine ⟨named, fun text held => ?_⟩
  obtain ⟨value, -, rfl⟩ := Option.map_eq_some_iff.mp held
  exact value.initializerText slot.kind

theorem clean_argumentFragments (named : f.WellNamed) (planned : ofDecl f = .ok plan) :
    ∀ fragment ∈ plan.argumentFragments, fragment.Clean := by
  intro fragment member
  have slots : ∀ slot ∈ plan.args, isIdentifier slot.param.name = true := fun _ =>
    isIdentifier_of_mem_args named planned
  rcases mem_argumentFragments member with rfl | rfl | ⟨slot, inArgs, rfl⟩ | rfl | ⟨_, rfl⟩
  · exact List.forall_mem_map.mpr fun slot inArgs =>
      NameScheme.isIdentifier_argSlot (slots slot inArgs)
  · trivial
  · exact clean_row (slots slot inArgs)
  · trivial
  · trivial

theorem clean_entryParams (named : f.WellNamed) (planned : ofDecl f = .ok plan) :
    plan.entryParams.Clean := by
  unfold entryParams
  cases plan.shape with
  | fixed =>
    exact List.forall_mem_map.mpr fun slot inArgs =>
      NameScheme.isIdentifier_localParam (isIdentifier_of_mem_args named planned inArgs)
  | between | atLeast | keyword => trivial

theorem isIdentifier_entry (stem : isIdentifier names.stem = true) (named : f.WellNamed)
    (fits : f.OwnerFits) : isIdentifier (names.entry f) = true :=
  (NameScheme.isIdentifier_entry_iff stem named.name).mpr fun owner owned => (fits owner owned).1

/-- The unit of a function is clean if and only if its owner may go into names. -/
theorem clean_unit_iff (stem : isIdentifier names.stem = true) (named : f.WellNamed)
    (planned : ofDecl f = .ok plan) :
    (∀ fragment ∈ plan.unitFragments names, fragment.Clean) ↔ f.OwnerFits := by
  obtain ⟨rfl, -, -, lines⟩ := ofDecl_eq_ok_iff.mp planned
  constructor
  · intro clean owner owned
    have entry : (Fragment.entryOpen (names.entry plan.decl) plan.entryParams).Clean :=
      clean _ (by simp [unitFragments])
    refine ⟨(NameScheme.isIdentifier_entry_iff stem named.name).mp entry.1 owner owned, ?_⟩
    -- Without lines of C there is a placeholder, and it spells the owner.
    intro none
    have placeholder : (Fragment.placeholder plan.decl.qualifiedName).Clean := by
      refine clean _ ?_
      simp [unitFragments, statements, lines, none]
    exact (placeholderText_qualifiedName_iff named.name).mp placeholder owner owned
  · intro fits fragment member
    have entry := isIdentifier_entry stem named fits
    simp only [unitFragments, List.mem_append, List.mem_cons, List.not_mem_nil, or_false] at member
    rcases member with (((rfl | rfl) | argument) | statement) | rfl | rfl | rfl
    · trivial
    · exact ⟨entry, clean_entryParams named planned⟩
    · exact clean_argumentFragments named planned fragment argument
    · rcases mem_statements statement with ⟨none, rfl⟩ | ⟨line, rfl⟩
      · refine (placeholderText_qualifiedName_iff named.name).mpr fun owner owned => ?_
        exact (fits owner owned).2 (lines.symm.trans none)
      · trivial
    · trivial
    · exact ⟨NameScheme.isIdentifier_functionObject entry, entry⟩
    · trivial

theorem clean_maker {className : String} (stem : isIdentifier names.stem = true)
    (named : isIdentifier className = true) :
    ∀ fragment ∈ plan.makerFragments names className, fragment.Clean := by
  intro fragment member
  simp only [makerFragments, rawPart, List.mem_append, List.mem_cons, List.not_mem_nil, or_false,
    List.mem_map] at member
  rcases member with ((rfl | rfl | rfl | rfl) | ⟨_, _, rfl⟩) | rfl | rfl | rfl
  · trivial
  · exact ⟨NameScheme.isIdentifier_ofClass stem named (by decide), trivial⟩
  · trivial
  · exact NameScheme.isIdentifier_ofClass stem named (by decide)
  · trivial
  · rfl
  · trivial
  · trivial

theorem clean_mapEntry (stem : isIdentifier names.stem = true) (named : plan.decl.WellNamed)
    (fits : plan.decl.OwnerFits) : (plan.mapEntry names).Clean :=
  ⟨named.name, NameScheme.isIdentifier_functionObject (isIdentifier_entry stem named fits)⟩

end FunctionPlan

/-! ## Classes and modules -/

theorem clean_mapFragments {table dict : String} {entries : List Fragment}
    (tableFits : isIdentifier table = true) (dictFits : isIdentifier dict = true)
    (clean : ∀ fragment ∈ entries, fragment.Clean) :
    ∀ fragment ∈ mapFragments table dict entries, fragment.Clean := by
  intro fragment member
  simp only [mapFragments, List.mem_append, List.mem_cons, List.not_mem_nil, or_false] at member
  rcases member with (rfl | inEntries) | rfl | rfl | rfl
  · exact tableFits
  · exact clean fragment inEntries
  · trivial
  · exact ⟨dictFits, tableFits⟩
  · trivial

theorem ModuleDecl.owner_of_adopt {m : ModuleDecl} {c : ClassDecl} (declared : c ∈ m.adopt.classes)
    {f : FunctionDecl} (member : f ∈ c.methods) : f.owner = some c.name := by
  obtain ⟨original, -, rfl⟩ := List.mem_map.mp declared
  obtain ⟨method, -, rfl⟩ := List.mem_map.mp member
  rfl

namespace ClassPlan

variable {names : NameScheme} {c : ClassDecl} {plan : ClassPlan}

theorem clean_typePart (stem : isIdentifier names.stem = true)
    (named : isIdentifier plan.decl.name = true) :
    ∀ fragment ∈ plan.typePart names, fragment.Clean := by
  rw [typePart, List.forall_mem_cons, List.forall_mem_singleton]
  refine ⟨⟨NameScheme.isIdentifier_ofClass stem named (by decide), named, fun entry made => ?_,
    fun dict held => ?_⟩, trivial⟩
  · obtain ⟨_, -, rfl⟩ := Option.map_eq_some_iff.mp made
    exact NameScheme.isIdentifier_ofClass stem named (by decide)
  · split at held
    · cases held
    · cases held
      exact NameScheme.isIdentifier_ofClass stem named (by decide)

theorem clean (stem : isIdentifier names.stem = true) (named : c.WellNamed)
    (owned : ∀ f ∈ c.methods, f.owner = some c.name) (planned : ofDecl c = .ok plan) :
    ∀ fragment ∈ plan.classFragments names, fragment.Clean := by
  obtain ⟨rfl, plans, found, -, methods⟩ := ofDecl_eq_ok_iff.mp planned
  have method : ∀ method ∈ plan.methods, FunctionPlan.ofDecl method.decl = .ok method ∧
      method.decl.WellNamed ∧ method.decl.OwnerFits := by
    intro method inMethods
    rw [methods] at inMethods
    obtain ⟨methodPlanned, declared⟩ :=
      FunctionPlan.planned_of_mem found (List.mem_filter.mp inMethods).1
    refine ⟨methodPlanned, named.methods _ declared, ?_⟩
    -- The owner of a method is its class, whose name has been checked.
    refine FunctionDecl.ownerFits_of_isIdentifier fun owner held => ?_
    cases held.symm.trans (owned _ declared)
    exact named.name
  intro fragment member
  simp only [classFragments, List.mem_append, List.mem_cons, List.not_mem_nil, or_false,
    List.mem_flatMap] at member
  rcases member with
    ((((rfl | rfl) | ⟨p, inMethods, inUnit⟩) | ⟨_, _, inMaker⟩) | inLocals) | inType
  · exact NameScheme.isIdentifier_ofClass stem named.name (by decide)
  · trivial
  · obtain ⟨methodPlanned, methodNamed, fits⟩ := method p inMethods
    exact (FunctionPlan.clean_unit_iff stem methodNamed methodPlanned).mpr fits fragment inUnit
  · exact FunctionPlan.clean_maker stem named.name fragment inMaker
  · unfold localsPart at inLocals
    split at inLocals
    · cases inLocals
    · refine clean_mapFragments (NameScheme.isIdentifier_ofClass stem named.name (by decide))
        (NameScheme.isIdentifier_ofClass stem named.name (by decide)) ?_ fragment inLocals
      refine List.forall_mem_map.mpr fun p inMethods => ?_
      obtain ⟨-, methodNamed, fits⟩ := method p inMethods
      exact FunctionPlan.clean_mapEntry stem methodNamed fits
  · exact clean_typePart stem named.name fragment inType

end ClassPlan

namespace ModulePlan

variable {m : ModuleDecl} {plan : ModulePlan}

theorem clean_opening {names : NameScheme} (stem : isIdentifier names.stem = true) :
    ∀ fragment ∈ plan.opening names, fragment.Clean := by
  intro fragment member
  simp only [opening, List.mem_append, List.mem_cons, List.not_mem_nil, or_false,
    List.mem_map] at member
  rcases member with ((rfl | rfl) | ⟨file, included, rfl⟩) | rfl | rfl | rfl
  · trivial
  · trivial
  · exact included
  · trivial
  · exact NameScheme.isIdentifier_guard stem
  · trivial

theorem clean_ending {names : NameScheme} (stem : isIdentifier names.stem = true)
    (named : isIdentifier plan.decl.name = true)
    (functions : ∀ p ∈ plan.functions, p.decl.WellNamed ∧ p.decl.OwnerFits)
    (classes : ∀ c ∈ plan.classes, isIdentifier c.decl.name = true) :
    ∀ fragment ∈ plan.ending names, fragment.Clean := by
  have fixed : ∀ {tail : String}, allWord tail = true →
      isIdentifier (names.stem ++ tail) = true := fun words =>
    (isIdentifier_append stem).trans words
  have entries : ∀ fragment ∈ plan.globalEntries names, fragment.Clean := by
    rw [globalEntries, List.forall_mem_cons, List.forall_mem_append, List.forall_mem_map,
      List.forall_mem_map]
    refine ⟨⟨by decide, named⟩, fun p member => ?_, fun c member => ?_⟩
    · exact FunctionPlan.clean_mapEntry stem (functions p member).1 (functions p member).2
    · exact ⟨classes c member, NameScheme.isIdentifier_ofClass stem (classes c member) (by decide)⟩
  have guard := NameScheme.isIdentifier_guard stem
  intro fragment member
  simp only [ending, globalEntries_eq, List.mem_append, List.mem_cons, List.not_mem_nil,
    or_false] at member
  rcases member with inGlobals | rfl | rfl | rfl | rfl | rfl
  · exact clean_mapFragments (fixed (by decide)) (fixed (by decide)) entries fragment inGlobals
  · exact ⟨fixed (by decide), fixed (by decide)⟩
  · trivial
  · exact ⟨named, fixed (by decide), guard⟩
  · trivial
  · exact guard

/-- In the source of an accepted module every text outside of comments and carried lines is fixed,
an identifier or a number, if and only if the owners of the functions of the module itself may go
into names. -/
theorem clean_iff (accepted : ofValid m = .ok plan) :
    (∀ fragment ∈ (plan.listing ⟨m.name⟩).fragments, fragment.Clean) ↔
      ∀ f ∈ m.functions, f.OwnerFits := by
  obtain ⟨valid, planned⟩ := ofValid_eq_ok_iff.mp accepted
  have named := ModuleDecl.wellNamed_of_validate valid
  obtain ⟨same, functions, classes⟩ := ofDecl_eq_ok_iff.mp planned
  have stem : isIdentifier (NameScheme.mk m.name).stem = true := named.name
  rw [fragments_listing]
  constructor
  · intro clean f declared
    obtain ⟨p, inPlan, found⟩ := exists_of_mem_left functions declared
    refine (FunctionPlan.clean_unit_iff stem (named.functions f declared) found).mp ?_
    intro fragment inUnit
    refine clean fragment (List.mem_append_left _ (List.mem_append_left _ ?_))
    exact List.mem_append_right _ (List.mem_flatMap.mpr ⟨p, inPlan, inUnit⟩)
  · intro fits
    have function : ∀ p ∈ plan.functions, FunctionPlan.ofDecl p.decl = .ok p ∧
        p.decl.WellNamed ∧ p.decl.OwnerFits := by
      intro p inPlan
      obtain ⟨found, declared⟩ := FunctionPlan.planned_of_mem functions inPlan
      exact ⟨found, named.functions _ declared, fits _ declared⟩
    rw [List.forall_mem_append, List.forall_mem_append, List.forall_mem_append,
      List.forall_mem_flatMap, List.forall_mem_flatMap]
    refine ⟨⟨⟨clean_opening stem, fun p inPlan => ?_⟩, fun c inPlan => ?_⟩, ?_⟩
    · obtain ⟨found, functionNamed, functionFits⟩ := function p inPlan
      exact (FunctionPlan.clean_unit_iff stem functionNamed found).mpr functionFits
    · obtain ⟨found, declared⟩ := ClassPlan.planned_of_mem classes inPlan
      exact ClassPlan.clean stem (named.classes _ declared)
        (fun _ => ModuleDecl.owner_of_adopt declared) found
    · refine clean_ending stem ?_ (fun p inPlan => (function p inPlan).2) fun c inPlan => ?_
      · rw [same]
        exact named.name
      · exact (named.classes _ (ClassPlan.planned_of_mem classes inPlan).2).name

end ModulePlan

/-! ## Two modules -/

theorem counterModule_clean :
    ModulePlan.ofValid counterModule = .ok counterPlan ∧
      ∀ fragment ∈ (counterPlan.listing ⟨"m"⟩).fragments, fragment.Clean := by
  have accepted : ModulePlan.ofValid counterModule = .ok counterPlan := rfl
  refine ⟨accepted, (ModulePlan.clean_iff accepted).mpr ?_⟩
  exact List.forall_mem_singleton.mpr nofun

/-- A function with an owner that is no identifier. -/
def ownedFunction : FunctionDecl := ⟨"f", some "a b", [], false, false, none, none⟩

/-- A module that holds `ownedFunction`. -/
def ownedModule : ModuleDecl := ⟨"m", none, none, [ownedFunction], []⟩

/-- The plan of `ownedModule`. -/
def ownedPlan : ModulePlan := ⟨ownedModule, [⟨ownedFunction, .fixed 0, [], []⟩], []⟩

/-- The module is accepted, but the name of its entry point is not an identifier. -/
theorem ownedModule_not_clean :
    ModulePlan.ofValid ownedModule = .ok ownedPlan ∧
      .entryOpen "m_a b_f" (.fixed []) ∈ (ownedPlan.listing ⟨"m"⟩).fragments ∧
      ¬ ∀ fragment ∈ (ownedPlan.listing ⟨"m"⟩).fragments, fragment.Clean := by
  have opened : .entryOpen "m_a b_f" (.fixed []) ∈ (ownedPlan.listing ⟨"m"⟩).fragments := by
    decide
  refine ⟨rfl, opened, fun clean => ?_⟩
  have identifier : isIdentifier "m_a b_f" = true := (clean _ opened).1
  exact absurd identifier (by decide)

end BindingGen
