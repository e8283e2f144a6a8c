import BindingGen.Proofs.Plan
import BindingGen.Proofs.Unit

/-!
# Definitions precede their uses

A generated source is compiled in one pass, so a name may be used only behind its definition. The
names of a definition and of its uses are made in different places: a unit names its own entry
point, the map of a class names the objects of its methods again, the type names the map and the
constructor, and the map of the module names functions and types. `Resolved` says what a fragment
has to find before it and `Awaited` what a definition has to find behind it.

Both are carried through the listing part by part. `Ordered seen part` holds of a part that follows
the fragments `seen`, and `Answered later part` of a part that the fragments `later` follow. Units
are ordered behind anything; a class adds its own structure and its methods to what its maps may
name; and the module does the same with its functions and types.

Results:
1. `ordered_iff`, `answered_iff`: the invariants say what they should of every single position.
2. `ClassPlan.ordered`, `ClassPlan.answered`: a class is closed but for its type, which is awaited.
3. `definitions_precede_uses`: in the source of any planned module, whatever the names start with,
   every reference is to an earlier definition and everything registered is reachable from a map.
-/

namespace BindingGen

/-! ## References and definitions -/

namespace Fragment

/-- `Resolved seen fragment`: what a fragment refers to is defined in `seen`. -/
def Resolved (seen : List Fragment) : Fragment → Prop
  | allocate layout => .instanceLayout layout ∈ seen
  | functionObject _ entry _ => ∃ params, .entryOpen entry params ∈ seen
  | mapEntry _ (.pointer target) =>
    (∃ entry shape, .functionObject target entry shape ∈ seen) ∨
      ∃ className makeNew locals, .typeDefine target className makeNew locals ∈ seen
  | dictDefine _ table => .mapOpen table ∈ seen
  | typeDefine _ _ makeNew locals =>
    (∀ entry, makeNew = some entry → .entryOpen entry .makeNew ∈ seen) ∧
      ∀ dict, locals = some dict → ∃ table, .dictDefine dict table ∈ seen
  | moduleDefine _ globals => ∃ table, .dictDefine globals table ∈ seen
  | register _ object _ => ∃ globals, .moduleDefine object globals ∈ seen
  | _ => True

/-- Whether a fragment neither refers to a definition nor is to be referred to. -/
def isFree : Fragment → Bool
  | allocate _ => false
  | functionObject _ _ _ => false
  | mapEntry _ _ => false
  | dictDefine _ _ => false
  | typeDefine _ _ _ _ => false
  | moduleDefine _ _ => false
  | register _ _ _ => false
  | _ => true

/-- Whether a fragment is an entry of a map. -/
def isMapEntry : Fragment → Bool
  | mapEntry _ _ => true
  | _ => false

/-- Whether a fragment defines a module. -/
def isModule : Fragment → Bool
  | moduleDefine _ _ => true
  | _ => false

/-- Whether a fragment may belong to a function, a class or a map; the others frame a module. -/
def isUnitPart : Fragment → Bool
  | header _ _ _ => false
  | includeFile _ => false
  | ifOpen _ => false
  | ifClose _ => false
  | moduleDefine _ _ => false
  | register _ _ _ => false
  | _ => true

/-- `HasEntry table entry fragments`: the map of this name among the fragments has the entry. -/
def HasEntry (table : String) (entry : Fragment) (fragments : List Fragment) : Prop :=
  ∃ rows, .mapOpen table :: rows ++ [.mapClose] <:+: fragments ∧
    (∀ row ∈ rows, row.isMapEntry = true) ∧ entry ∈ rows

/-- `Awaited globals later fragment`: what a fragment defines for callers is named in `later`, an
object by an entry of some map and a type by the entry of its class in the map `globals`. -/
def Awaited (globals : String) (later : List Fragment) : Fragment → Prop
  | functionObject object _ _ => ∃ key, .mapEntry key (.pointer object) ∈ later
  | typeDefine name className _ _ =>
    HasEntry globals (.mapEntry className (.pointer name)) later
  | _ => True

theorem resolved_of_isFree {seen : List Fragment} {fragment : Fragment}
    (free : fragment.isFree = true) : fragment.Resolved seen := by
  cases fragment with
  | allocate | functionObject | mapEntry | dictDefine | typeDefine | moduleDefine | register =>
    cases free
  | _ => trivial

theorem awaited_of_isFree {globals : String} {later : List Fragment} {fragment : Fragment}
    (free : fragment.isFree = true) : fragment.Awaited globals later := by
  cases fragment with
  | functionObject | typeDefine => cases free
  | _ => trivial

theorem isModule_of_isFree {fragment : Fragment} (free : fragment.isFree = true) :
    fragment.isModule = false := by
  cases fragment with
  | moduleDefine => cases free
  | _ => rfl

theorem isModule_of_isUnitPart {fragment : Fragment} (part : fragment.isUnitPart = true) :
    fragment.isModule = false := by
  cases fragment with
  | moduleDefine => cases part
  | _ => rfl

theorem isUnitPart_of_isArgument {fragment : Fragment} (argument : fragment.isArgument = true) :
    fragment.isUnitPart = true := by
  cases fragment with
  | header | includeFile | ifOpen | ifClose | moduleDefine | register => cases argument
  | _ => rfl

theorem isUnitPart_of_isMapEntry {fragment : Fragment} (entry : fragment.isMapEntry = true) :
    fragment.isUnitPart = true := by
  cases fragment with
  | mapEntry => rfl
  | _ => cases entry

theorem isFree_of_isArgument {fragment : Fragment} (argument : fragment.isArgument = true) :
    fragment.isFree = true := by
  cases fragment with
  | allocate | functionObject | mapEntry | dictDefine | typeDefine | moduleDefine | register =>
    cases argument
  | _ => rfl

theorem Resolved.mono {seen wider : List Fragment} {fragment : Fragment}
    (resolved : fragment.Resolved seen) (wide : seen ⊆ wider) : fragment.Resolved wider := by
  cases fragment with
  | allocate => exact wide resolved
  | functionObject =>
    obtain ⟨params, member⟩ := resolved
    exact ⟨params, wide member⟩
  | mapEntry _ value =>
    cases value with
    | string => trivial
    | pointer =>
      rcases resolved with ⟨entry, shape, member⟩ | ⟨className, makeNew, locals, member⟩
      · exact .inl ⟨entry, shape, wide member⟩
      · exact .inr ⟨className, makeNew, locals, wide member⟩
  | dictDefine => exact wide resolved
  | typeDefine =>
    refine ⟨fun entry made => wide (resolved.1 entry made), fun dict held => ?_⟩
    obtain ⟨table, member⟩ := resolved.2 dict held
    exact ⟨table, wide member⟩
  | moduleDefine =>
    obtain ⟨table, member⟩ := resolved
    exact ⟨table, wide member⟩
  | register =>
    obtain ⟨globals, member⟩ := resolved
    exact ⟨globals, wide member⟩
  | _ => trivial

theorem Awaited.mono {globals : String} {later wider : List Fragment} {fragment : Fragment}
    (awaited : fragment.Awaited globals later) (wide : later <:+: wider) :
    fragment.Awaited globals wider := by
  cases fragment with
  | functionObject =>
    obtain ⟨key, member⟩ := awaited
    exact ⟨key, wide.subset member⟩
  | typeDefine =>
    obtain ⟨rows, inside, entries, member⟩ := awaited
    exact ⟨rows, inside.trans wide, entries, member⟩
  | _ => trivial

end Fragment

/-! ## Parts of a listing -/

/-- `Ordered seen part`: behind `seen`, every fragment of a part finds what it refers to. -/
def Ordered : List Fragment → List Fragment → Prop
  | _, [] => True
  | seen, fragment :: rest => fragment.Resolved seen ∧ Ordered (seen ++ [fragment]) rest

/-- `Answered globals later part`: before `later`, every fragment of a part is awaited. -/
def Answered (globals : String) (later : List Fragment) : List Fragment → Prop
  | [] => True
  | fragment :: rest => fragment.Awaited globals (rest ++ later) ∧ Answered globals later rest

theorem ordered_iff {seen part : List Fragment} :
    Ordered seen part ↔
      ∀ before fragment after, part = before ++ fragment :: after →
        fragment.Resolved (seen ++ before) := by
  -- Each step moves the first fragment of the part to the end of what is before it.
  induction part generalizing seen with
  | nil =>
    refine iff_of_true trivial fun before fragment after none => ?_
    exact absurd none.symm (List.append_ne_nil_of_right_ne_nil _ (List.cons_ne_nil _ _))
  | cons first rest ih =>
    rw [Ordered, ih]
    constructor
    · rintro ⟨resolved, ordered⟩ before fragment after split
      rcases List.cons_eq_append_iff.mp split with ⟨rfl, same⟩ | ⟨tail, rfl, same⟩
      · cases same
        rw [List.append_nil]
        exact resolved
      · have inRest := ordered tail fragment after same
        rw [List.append_assoc] at inRest
        exact inRest
    · intro resolved
      refine ⟨?_, fun before fragment after split => ?_⟩
      · have atFirst := resolved [] first rest rfl
        rw [List.append_nil] at atFirst
        exact atFirst
      · have inRest := resolved (first :: before) fragment after (by rw [split]; rfl)
        rw [List.append_assoc]
        exact inRest

theorem answered_iff {globals : String} {later part : List Fragment} :
    Answered globals later part ↔
      ∀ before fragment after, part = before ++ fragment :: after →
        fragment.Awaited globals (after ++ later) := by
  induction part with
  | nil =>
    refine iff_of_true trivial fun before fragment after none => ?_
    exact absurd none.symm (List.append_ne_nil_of_right_ne_nil _ (List.cons_ne_nil _ _))
  | cons first rest ih =>
    rw [Answered, ih]
    constructor
    · rintro ⟨awaited, answered⟩ before fragment after split
      rcases List.cons_eq_append_iff.mp split with ⟨rfl, same⟩ | ⟨tail, rfl, same⟩
      · cases same
        exact awaited
      · exact answered tail fragment after same
    · intro awaited
      refine ⟨awaited [] first rest rfl, fun before fragment after split => ?_⟩
      exact awaited (first :: before) fragment after (by rw [split]; rfl)

theorem ordered_append {seen a b : List Fragment} :
    Ordered seen (a ++ b) ↔ Ordered seen a ∧ Ordered (seen ++ a) b := by
  induction a generalizing seen with
  | nil => rw [List.nil_append, List.append_nil, Ordered, true_and]
  | cons first rest ih =>
    rw [List.cons_append, Ordered, Ordered, ih, and_assoc, List.append_assoc]
    rfl

theorem answered_append {globals : String} {later a b : List Fragment} :
    Answered globals later (a ++ b) ↔
      Answered globals (b ++ later) a ∧ Answered globals later b := by
  induction a with
  | nil => rw [List.nil_append, Answered, true_and]
  | cons first rest ih =>
    rw [List.cons_append, Answered, Answered, ih, and_assoc, List.append_assoc]

theorem Ordered.mono {seen wider part : List Fragment} (ordered : Ordered seen part)
    (wide : seen ⊆ wider) : Ordered wider part := by
  induction part generalizing seen wider with
  | nil => trivial
  | cons first rest ih =>
    refine ⟨ordered.1.mono wide, ih ordered.2 ?_⟩
    exact List.append_subset.mpr ⟨fun _ member => List.mem_append_left _ (wide member),
      List.subset_append_right _ _⟩

theorem ordered_of_forall {seen part : List Fragment}
    (resolved : ∀ fragment ∈ part, fragment.Resolved seen) : Ordered seen part :=
  ordered_iff.mpr fun _ _ _ split =>
    (resolved _ (split ▸ List.mem_append_right _ List.mem_cons_self)).mono
      (List.subset_append_left _ _)

theorem answered_of_free {globals : String} {later part : List Fragment}
    (free : ∀ fragment ∈ part, fragment.isFree = true) : Answered globals later part :=
  answered_iff.mpr fun _ _ _ split =>
    Fragment.awaited_of_isFree (free _ (split ▸ List.mem_append_right _ List.mem_cons_self))

theorem ordered_of_free {seen part : List Fragment}
    (free : ∀ fragment ∈ part, fragment.isFree = true) : Ordered seen part :=
  ordered_of_forall fun fragment member => Fragment.resolved_of_isFree (free fragment member)

theorem ordered_flatMap {α : Type} {seen : List Fragment} {as : List α} {f : α → List Fragment}
    (each : ∀ a ∈ as, Ordered seen (f a)) : Ordered seen (as.flatMap f) := by
  induction as generalizing seen with
  | nil => trivial
  | cons a as ih =>
    rw [List.flatMap_cons, ordered_append]
    refine ⟨each a List.mem_cons_self, ih fun b later => ?_⟩
    exact (each b (List.mem_cons_of_mem _ later)).mono (List.subset_append_left _ _)

theorem answered_flatMap {α : Type} {globals : String} {later : List Fragment} {as : List α}
    {f : α → List Fragment}
    (each : ∀ a ∈ as, ∀ wider, later <:+ wider → Answered globals wider (f a)) :
    Answered globals later (as.flatMap f) := by
  induction as with
  | nil => trivial
  | cons a as ih =>
    rw [List.flatMap_cons, answered_append]
    exact ⟨each a List.mem_cons_self _ (List.suffix_append _ _),
      ih fun b inRest => each b (List.mem_cons_of_mem _ inRest)⟩

/-- A map is ordered where all its entries are resolved. -/
theorem ordered_mapFragments {seen entries : List Fragment} {table dict : String}
    (resolved : ∀ fragment ∈ entries, fragment.Resolved seen) :
    Ordered seen (mapFragments table dict entries) := by
  rw [mapFragments, ordered_append, ordered_append]
  refine ⟨⟨⟨trivial, trivial⟩, ?_⟩, trivial, ?_, trivial, trivial⟩
  · exact (ordered_of_forall resolved).mono (List.subset_append_left _ _)
  · simp [Fragment.Resolved]

/-- Entries of a map, and what comes with them, are not awaited. -/
theorem answered_mapFragments {globals : String} {later entries : List Fragment}
    {table dict : String} (plain : ∀ fragment ∈ entries, fragment.isMapEntry = true) :
    Answered globals later (mapFragments table dict entries) := by
  have entriesAnswered : ∀ {later}, Answered globals later entries := by
    refine answered_iff.mpr fun before fragment after split => ?_
    have entry := plain fragment (split ▸ List.mem_append_right _ List.mem_cons_self)
    cases fragment with
    | functionObject | typeDefine => cases entry
    | _ => trivial
  rw [mapFragments, answered_append, answered_append]
  exact ⟨⟨⟨trivial, trivial⟩, entriesAnswered⟩, trivial, trivial, trivial, trivial⟩

theorem isUnitPart_of_mem_mapFragments {entries : List Fragment} {table dict : String}
    (plain : ∀ fragment ∈ entries, fragment.isMapEntry = true) {fragment : Fragment}
    (member : fragment ∈ mapFragments table dict entries) : fragment.isUnitPart = true := by
  simp only [mapFragments, List.mem_append, List.mem_cons, List.not_mem_nil, or_false] at member
  rcases member with (rfl | inEntries) | rfl | rfl | rfl
  · rfl
  · exact Fragment.isUnitPart_of_isMapEntry (plain fragment inEntries)
  · rfl
  · rfl
  · rfl

/-! ## Units -/

namespace FunctionPlan

variable (names : NameScheme) (plan : FunctionPlan)

theorem isFree_of_mem_statements {fragment : Fragment} (member : fragment ∈ plan.statements) :
    fragment.isFree = true := by
  rcases mem_statements member with ⟨_, rfl⟩ | ⟨_, rfl⟩
  · rfl
  · rfl

/-- In a unit only the registration refers to a definition, and the entry point precedes it. -/
theorem unit_split : ∃ body,
    plan.unitFragments names = body ++
      [.functionObject (names.functionObject plan.decl) (names.entry plan.decl) plan.shape,
        .blank] ∧
      (∀ fragment ∈ body, fragment.isFree = true) ∧
      .entryOpen (names.entry plan.decl) plan.entryParams ∈ body := by
  refine ⟨[.comment plan.decl.signature, .entryOpen (names.entry plan.decl) plan.entryParams] ++
    plan.argumentFragments ++ plan.statements ++ [.blockClose], ?_, ?_, by simp⟩
  · simp only [unitFragments, List.append_assoc, List.cons_append, List.nil_append]
  · intro fragment member
    simp only [List.mem_append, List.mem_cons, List.not_mem_nil, or_false] at member
    rcases member with (((rfl | rfl) | argument) | statement) | rfl
    · rfl
    · rfl
    · exact Fragment.isFree_of_isArgument (isArgument_of_mem_argumentFragments argument)
    · exact isFree_of_mem_statements plan statement
    · rfl

theorem functionObject_mem_unit :
    .functionObject (names.functionObject plan.decl) (names.entry plan.decl) plan.shape ∈
      plan.unitFragments names := by
  obtain ⟨body, split, -, -⟩ := unit_split names plan
  rw [split]
  exact List.mem_append_right _ List.mem_cons_self

theorem ordered_unit {seen : List Fragment} : Ordered seen (plan.unitFragments names) := by
  obtain ⟨body, split, free, opened⟩ := unit_split names plan
  rw [split, ordered_append]
  refine ⟨ordered_of_free free, ⟨plan.entryParams, ?_⟩, trivial, trivial⟩
  exact List.mem_append_right _ opened

theorem answered_unit {globals : String} {later : List Fragment}
    (named : plan.mapEntry names ∈ later) : Answered globals later (plan.unitFragments names) := by
  obtain ⟨body, split, free, -⟩ := unit_split names plan
  rw [split, answered_append]
  refine ⟨answered_of_free free, ⟨plan.decl.name, ?_⟩, trivial, trivial⟩
  exact List.mem_append_right _ named

/-- The constructor of a class needs the layout of the instances that it allocates. -/
theorem ordered_maker {className : String} {seen : List Fragment}
    (laidOut : .instanceLayout (names.layout className) ∈ seen) :
    Ordered seen (plan.makerFragments names className) := by
  have lines : ∀ {seen}, Ordered seen plan.rawPart := by
    refine ordered_of_free fun fragment member => ?_
    obtain ⟨line, _, rfl⟩ := List.mem_map.mp member
    rfl
  rw [makerFragments, ordered_append, ordered_append]
  refine ⟨⟨⟨trivial, trivial, trivial, ?_, trivial⟩, lines⟩, trivial, trivial, trivial, trivial⟩
  exact List.mem_append_left _ (List.mem_append_left _ (List.mem_append_left _ laidOut))

theorem answered_maker {globals className : String} {later : List Fragment} :
    Answered globals later (plan.makerFragments names className) := by
  have lines : ∀ {later}, Answered globals later plan.rawPart := by
    refine answered_of_free fun fragment member => ?_
    obtain ⟨line, _, rfl⟩ := List.mem_map.mp member
    rfl
  rw [makerFragments, answered_append, answered_append]
  exact ⟨⟨⟨trivial, trivial, trivial, trivial, trivial⟩, lines⟩, trivial, trivial, trivial, trivial⟩

theorem isUnitPart_of_mem_unit {fragment : Fragment}
    (member : fragment ∈ plan.unitFragments names) : fragment.isUnitPart = true := by
  simp only [unitFragments, List.mem_append, List.mem_cons, List.not_mem_nil, or_false] at member
  rcases member with (((rfl | rfl) | argument) | statement) | rfl | rfl | rfl
  · rfl
  · rfl
  · exact Fragment.isUnitPart_of_isArgument (isArgument_of_mem_argumentFragments argument)
  · rcases mem_statements statement with ⟨_, rfl⟩ | ⟨_, rfl⟩
    · rfl
    · rfl
  · rfl
  · rfl
  · rfl

theorem isUnitPart_of_mem_maker {className : String} {fragment : Fragment}
    (member : fragment ∈ plan.makerFragments names className) : fragment.isUnitPart = true := by
  simp only [makerFragments, rawPart, List.mem_append, List.mem_cons, List.not_mem_nil, or_false,
    List.mem_map] at member
  rcases member with ((rfl | rfl | rfl | rfl) | ⟨_, _, rfl⟩) | rfl | rfl | rfl
  all_goals rfl

end FunctionPlan

/-! ## Classes -/

namespace ClassPlan

variable (names : NameScheme) (plan : ClassPlan)

theorem localsPart_of_mem {method : FunctionPlan} (member : method ∈ plan.methods) :
    plan.localsPart names =
      mapFragments (names.localsTable plan.decl.name) (names.localsDict plan.decl.name)
        (plan.methods.map (·.mapEntry names)) := by
  rw [localsPart, List.isEmpty_eq_false_iff.mpr (List.ne_nil_of_mem member),
    if_neg Bool.false_ne_true]

theorem ordered_localsPart {seen : List Fragment}
    (registered : ∀ method ∈ plan.methods, ∀ fragment ∈ method.unitFragments names,
      fragment ∈ seen) : Ordered seen (plan.localsPart names) := by
  unfold localsPart
  split
  · trivial
  · refine ordered_mapFragments fun fragment member => ?_
    obtain ⟨method, inClass, rfl⟩ := List.mem_map.mp member
    have object := FunctionPlan.functionObject_mem_unit names method
    exact .inl ⟨_, _, registered method inClass _ object⟩

/-- What the type of a class refers to is in the unit of the constructor and in the map. -/
theorem ordered_typePart {seen : List Fragment}
    (made : ∀ maker ∈ plan.maker, ∀ fragment ∈ maker.makerFragments names plan.decl.name,
      fragment ∈ seen)
    (held : plan.localsPart names ⊆ seen) : Ordered seen (plan.typePart names) := by
  refine ⟨⟨fun entry found => ?_, fun dict found => ?_⟩, trivial, trivial⟩
  · obtain ⟨maker, inClass, rfl⟩ := Option.map_eq_some_iff.mp found
    refine made maker inClass _ ?_
    simp [FunctionPlan.makerFragments]
  · split at found
    · cases found
    · next some =>
      cases found
      refine ⟨names.localsTable plan.decl.name, held ?_⟩
      rw [localsPart, if_neg some]
      simp [mapFragments]

/-- Every reference in a class is to an earlier definition of that class. -/
theorem ordered {seen : List Fragment} : Ordered seen (plan.classFragments names) := by
  rw [classFragments, ordered_append, ordered_append, ordered_append, ordered_append]
  refine ⟨⟨⟨⟨⟨trivial, trivial, trivial⟩, ?_⟩, ?_⟩, ?_⟩, ?_⟩
  · exact ordered_flatMap fun method _ => FunctionPlan.ordered_unit names method
  · refine ordered_flatMap fun maker _ => FunctionPlan.ordered_maker names maker ?_
    simp
  · refine ordered_localsPart names plan fun method inClass fragment member => ?_
    refine List.mem_append_right _ (List.mem_append_left _ (List.mem_append_right _ ?_))
    exact List.mem_flatMap.mpr ⟨method, inClass, member⟩
  · refine ordered_typePart names plan (fun maker inClass fragment member => ?_) ?_
    · refine List.mem_append_right _ (List.mem_append_left _ (List.mem_append_right _ ?_))
      exact List.mem_flatMap.mpr ⟨maker, Option.mem_toList.mpr inClass, member⟩
    · exact fun _ member => List.mem_append_right _ (List.mem_append_right _ member)

/-- What a class registers is in its map; its type is left to the map of the module. -/
theorem answered {globals : String} {later : List Fragment}
    (named : Fragment.HasEntry globals (plan.mapEntry names) later) :
    Answered globals later (plan.classFragments names) := by
  rw [classFragments, answered_append, answered_append, answered_append, answered_append]
  refine ⟨⟨⟨⟨⟨trivial, trivial, trivial⟩, ?_⟩, ?_⟩, ?_⟩, ⟨?_, trivial, trivial⟩⟩
  · -- A class with a method has a map, and the map comes behind all units.
    refine answered_flatMap fun method inClass wider wide => ?_
    refine FunctionPlan.answered_unit names method (wide.subset ?_)
    refine List.mem_append_right _ (List.mem_append_left _ ?_)
    rw [localsPart_of_mem names plan inClass, mapFragments]
    exact List.mem_append_left _ (List.mem_append_right _ (List.mem_map_of_mem inClass))
  · exact answered_flatMap fun maker _ _ _ => FunctionPlan.answered_maker names maker
  · unfold localsPart
    split
    · trivial
    · refine answered_mapFragments fun fragment member => ?_
      obtain ⟨method, _, rfl⟩ := List.mem_map.mp member
      rfl
  · exact Fragment.Awaited.mono named
      (List.suffix_append [.blank] later).isInfix

theorem typeDefine_mem : ∃ makeNew locals,
    .typeDefine (names.typeObject plan.decl.name) plan.decl.name makeNew locals ∈
      plan.classFragments names := by
  refine ⟨plan.maker.map fun _ => names.makeNew plan.decl.name,
    if plan.methods.isEmpty then none else some (names.localsDict plan.decl.name), ?_⟩
  rw [classFragments, typePart]
  exact List.mem_append_right _ List.mem_cons_self

theorem isUnitPart_of_mem {fragment : Fragment} (member : fragment ∈ plan.classFragments names) :
    fragment.isUnitPart = true := by
  simp only [classFragments, List.mem_append, List.mem_cons, List.not_mem_nil, or_false,
    List.mem_flatMap] at member
  rcases member with ((((rfl | rfl) | ⟨_, _, inUnit⟩) | ⟨_, _, inMaker⟩) | inLocals) | inType
  · rfl
  · rfl
  · exact FunctionPlan.isUnitPart_of_mem_unit names _ inUnit
  · exact FunctionPlan.isUnitPart_of_mem_maker names _ inMaker
  · unfold localsPart at inLocals
    split at inLocals
    · cases inLocals
    · refine isUnitPart_of_mem_mapFragments (fun row member => ?_) inLocals
      obtain ⟨_, _, rfl⟩ := List.mem_map.mp member
      rfl
  · simp only [typePart, List.mem_cons, List.not_mem_nil, or_false] at inType
    rcases inType with rfl | rfl
    · rfl
    · rfl

end ClassPlan

/-! ## Modules -/

namespace ModulePlan

variable (names : NameScheme) (plan : ModulePlan)

theorem isFree_of_mem_opening {fragment : Fragment} (member : fragment ∈ plan.opening names) :
    fragment.isFree = true := by
  simp only [opening, includedFiles, List.map_cons, List.map_nil, List.mem_append, List.mem_cons,
    List.not_mem_nil, or_false] at member
  rcases member with ((rfl | rfl) | (rfl | rfl)) | (rfl | rfl | rfl)
  all_goals rfl

/-- The entries of the map of a module. -/
def globalEntries : List Fragment :=
  .mapEntry reservedSymbol (.string plan.decl.name) ::
    (plan.functions.map (·.mapEntry names) ++ plan.classes.map (·.mapEntry names))

theorem globalEntries_eq : plan.globalsPart names =
    mapFragments names.globalsTable names.globalsDict (plan.globalEntries names) := rfl

theorem isMapEntry_of_mem_globalEntries {fragment : Fragment}
    (member : fragment ∈ plan.globalEntries names) : fragment.isMapEntry = true := by
  simp only [globalEntries, List.mem_cons, List.mem_append, List.mem_map] at member
  rcases member with rfl | ⟨_, _, rfl⟩ | ⟨_, _, rfl⟩
  · rfl
  · rfl
  · rfl

theorem hasEntry_ending {fragment : Fragment} (member : fragment ∈ plan.globalEntries names) :
    Fragment.HasEntry names.globalsTable fragment (plan.ending names) := by
  refine ⟨plan.globalEntries names, ?_, fun _ => isMapEntry_of_mem_globalEntries names plan, member⟩
  rw [ending, globalEntries_eq, mapFragments]
  exact ⟨[], _, by simp only [List.append_assoc, List.cons_append, List.nil_append]; rfl⟩

/-- What the map of a module names has been registered or defined. -/
theorem ordered_globalsPart {seen : List Fragment}
    (registered : ∀ function ∈ plan.functions, ∀ fragment ∈ function.unitFragments names,
      fragment ∈ seen)
    (defined : ∀ c ∈ plan.classes, ∀ fragment ∈ c.classFragments names, fragment ∈ seen) :
    Ordered seen (plan.globalsPart names) := by
  rw [globalEntries_eq]
  refine ordered_mapFragments fun fragment member => ?_
  simp only [globalEntries, List.mem_cons, List.mem_append, List.mem_map] at member
  rcases member with rfl | ⟨function, inModule, rfl⟩ | ⟨c, inModule, rfl⟩
  · trivial
  · have object := FunctionPlan.functionObject_mem_unit names function
    exact .inl ⟨_, _, registered function inModule _ object⟩
  · obtain ⟨makeNew, locals, type⟩ := ClassPlan.typeDefine_mem names c
    exact .inr ⟨_, makeNew, locals, defined c inModule _ type⟩

/-- Every reference in the source of a module is to an earlier definition. -/
theorem ordered : Ordered [] (plan.listing names).fragments := by
  rw [fragments_listing, ordered_append, ordered_append, ordered_append]
  refine ⟨⟨⟨?_, ?_⟩, ?_⟩, ?_⟩
  · exact ordered_of_free fun _ => isFree_of_mem_opening names plan
  · exact ordered_flatMap fun function _ => FunctionPlan.ordered_unit names function
  · exact ordered_flatMap fun c _ => ClassPlan.ordered names c
  · -- The map of the module names what the functions and the classes before it define.
    rw [ending, ordered_append]
    refine ⟨ordered_globalsPart names plan (fun function inModule fragment member => ?_)
      (fun c inModule fragment member => ?_), ⟨names.globalsTable, ?_⟩, trivial,
      ⟨names.globalsDict, ?_⟩, trivial, trivial, trivial⟩
    · refine List.mem_append_right _ (List.mem_append_left _ (List.mem_append_right _ ?_))
      exact List.mem_flatMap.mpr ⟨function, inModule, member⟩
    · refine List.mem_append_right _ (List.mem_append_right _ ?_)
      exact List.mem_flatMap.mpr ⟨c, inModule, member⟩
    · simp [globalEntries_eq, mapFragments]
    · simp

/-- Everything that the source of a module registers is named by a later map. -/
theorem answered : Answered names.globalsTable [] (plan.listing names).fragments := by
  rw [fragments_listing, answered_append, answered_append, answered_append, List.append_nil]
  refine ⟨⟨⟨?_, ?_⟩, ?_⟩, ?_⟩
  · exact answered_of_free fun _ => isFree_of_mem_opening names plan
  · refine answered_flatMap fun function inModule wider wide => ?_
    have entry : function.mapEntry names ∈ plan.globalEntries names :=
      List.mem_cons_of_mem _ (List.mem_append_left _ (List.mem_map_of_mem inModule))
    obtain ⟨rows, inside, -, member⟩ := hasEntry_ending names plan entry
    refine FunctionPlan.answered_unit names function (wide.subset ?_)
    refine List.mem_append_right _ (inside.subset ?_)
    exact List.mem_append_left _ (List.mem_cons_of_mem _ member)
  · refine answered_flatMap fun c inModule wider wide => ?_
    have entry : c.mapEntry names ∈ plan.globalEntries names :=
      List.mem_cons_of_mem _ (List.mem_append_right _ (List.mem_map_of_mem inModule))
    obtain ⟨rows, inside, entries, member⟩ := hasEntry_ending names plan entry
    exact ClassPlan.answered names c ⟨rows, inside.trans wide.isInfix, entries, member⟩
  · rw [ending, answered_append, globalEntries_eq]
    refine ⟨answered_mapFragments fun _ => isMapEntry_of_mem_globalEntries names plan, ?_⟩
    exact ⟨trivial, trivial, trivial, trivial, trivial, trivial⟩

/-- What a module defines for its own tables: its functions, its classes and its map. -/
def definitionPart : List Fragment :=
  plan.functions.flatMap (·.unitFragments names) ++
    plan.classes.flatMap (·.classFragments names) ++ plan.globalsPart names

/-- The definitions of a module stand between the opening and the module object. -/
theorem fragments_eq_definitionPart : (plan.listing names).fragments =
    plan.opening names ++ plan.definitionPart names ++
      [.moduleDefine names.moduleObject names.globalsDict, .blank,
        .register plan.decl.name names.moduleObject names.guard, .blank,
        .ifClose names.guard] := by
  simp only [fragments_listing, ending, definitionPart, List.append_assoc]

theorem isUnitPart_of_mem_definitionPart {fragment : Fragment}
    (member : fragment ∈ plan.definitionPart names) : fragment.isUnitPart = true := by
  simp only [definitionPart, List.mem_append, List.mem_flatMap] at member
  rcases member with (⟨function, _, inUnit⟩ | ⟨c, _, inClass⟩) | inGlobals
  · exact FunctionPlan.isUnitPart_of_mem_unit names function inUnit
  · exact ClassPlan.isUnitPart_of_mem names c inClass
  · exact isUnitPart_of_mem_mapFragments
      (fun _ => isMapEntry_of_mem_globalEntries names plan) inGlobals

theorem filter_isModule : (plan.listing names).fragments.filter Fragment.isModule =
    [.moduleDefine names.moduleObject names.globalsDict] := by
  have none : ∀ {part : List Fragment}, (∀ fragment ∈ part, fragment.isModule = false) →
      part.filter Fragment.isModule = [] := fun plain =>
    List.filter_eq_nil_iff.mpr fun fragment member => Bool.eq_false_iff.mp (plain fragment member)
  have opening : (plan.opening names).filter Fragment.isModule = [] :=
    none fun _ member => Fragment.isModule_of_isFree (isFree_of_mem_opening names plan member)
  have definitions : (plan.definitionPart names).filter Fragment.isModule = [] :=
    none fun _ member =>
      Fragment.isModule_of_isUnitPart (isUnitPart_of_mem_definitionPart names plan member)
  rw [fragments_eq_definitionPart, List.filter_append, List.filter_append, opening, definitions]
  rfl

variable {m : ModuleDecl} {plan : ModulePlan}

/-- In the source of a planned module, whatever its names start with, every fragment refers to
earlier definitions, everything registered is named by a later map, there is one module object, and
every class has a type. -/
theorem definitions_precede_uses (planned : ofDecl m = .ok plan) :
    (∀ before fragment after,
        (plan.listing names).fragments = before ++ fragment :: after →
          fragment.Resolved before ∧ fragment.Awaited names.globalsTable after) ∧
      (∃ object globals, (plan.listing names).fragments.filter Fragment.isModule =
        [.moduleDefine object globals]) ∧
      ∀ c ∈ m.classes, ∃ type makeNew locals,
        .typeDefine type c.name makeNew locals ∈ (plan.listing names).fragments := by
  refine ⟨fun before fragment after split => ⟨?_, ?_⟩, ⟨_, _, filter_isModule names plan⟩, ?_⟩
  · exact ordered_iff.mp (ordered names plan) before fragment after split
  · have awaited := answered_iff.mp (answered names plan) before fragment after split
    rw [List.append_nil] at awaited
    exact awaited
  · intro c declared
    obtain ⟨-, -, classes⟩ := ofDecl_eq_ok_iff.mp planned
    obtain ⟨p, inPlan, classPlanned⟩ := exists_of_mem_left classes declared
    obtain ⟨makeNew, locals, type⟩ := ClassPlan.typeDefine_mem names p
    rw [(ClassPlan.ofDecl_eq_ok_iff.mp classPlanned).1] at type
    refine ⟨names.typeObject c.name, makeNew, locals, ?_⟩
    rw [fragments_listing]
    refine List.mem_append_left _ (List.mem_append_right _ ?_)
    exact List.mem_flatMap.mpr ⟨p, inPlan, type⟩

end ModulePlan

/-- In the source of `counterModule` the type of the class refers to a constructor and a map before
it, and the map of the module names both the function and the type. -/
theorem counterModule_references :
    ModulePlan.ofDecl counterModule.adopt = .ok counterPlan ∧
      ∀ before fragment after,
        (counterPlan.listing ⟨"m"⟩).fragments = before ++ fragment :: after →
          fragment.Resolved before ∧ fragment.Awaited "m_module_globals_table" after := by
  have planned : ModulePlan.ofDecl counterModule.adopt = .ok counterPlan := rfl
  exact ⟨planned, (ModulePlan.definitions_precede_uses ⟨"m"⟩ planned).1⟩

end BindingGen
