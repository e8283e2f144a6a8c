import BindingGen.Descriptor.Edit
import BindingGen.Loading
import BindingGen.Proofs.Acceptance

/-!
# The owners of methods

The owner of a method decides whether it is a constructor, it goes into names and into the texts of
faults. A descriptor that was read, or put together step by step, may hold any owners: those of
methods that were pushed as they are, and those that were right before a class was renamed. Still
only the class that declares a method counts: generating begins by adopting every method, and
adopting forgets what the owners were.

`disown` leaves out the owners of methods, so that modules are `SameButOwners` if nothing else tells
them apart. Of the steps that build a module `Edit.disown?` leaves out the owners they bring along
and the adoptions between them.

Results:
1. `adopt_eq_adopt_iff`: modules are the same once adopted if and only if they are the same but for
   the owners of methods.
2. `sameButOwners_of_runs`: what a run of steps builds, owners apart, depends neither on the owners
   that the steps bring along nor on the adoptions between them.
3. `parse_eq_ok_iff`, `parse_eq_error_iff`: what loading a text amounts to.
4. `Artifact.generateWith_owners`: generating gives the same artifacts or the same fault whatever
   the owners are, and agrees with loading on which modules are valid.
-/

namespace BindingGen

/-! ## Leaving out owners -/

/-- The function without its owner. -/
def FunctionDecl.disown (f : FunctionDecl) : FunctionDecl := { f with owner := none }

/-- The class without the owners of its methods. -/
def ClassDecl.disown (c : ClassDecl) : ClassDecl := { c with methods := c.methods.map (·.disown) }

namespace ClassDecl

theorem adopt_disown (c : ClassDecl) : c.disown.adopt = c.adopt := by
  simp only [adopt, disown, List.map_map, Function.comp_def, FunctionDecl.disown]

theorem disown_adopt (c : ClassDecl) : c.adopt.disown = c.disown := by
  simp only [adopt, disown, List.map_map, Function.comp_def, FunctionDecl.disown]

theorem disown_disown (c : ClassDecl) : c.disown.disown = c.disown := by
  simp only [disown, List.map_map, Function.comp_def, FunctionDecl.disown]

end ClassDecl

namespace ModuleDecl

/-- The module without the owners of the methods of its classes. Those of its functions stay. -/
def disown (m : ModuleDecl) : ModuleDecl := { m with classes := m.classes.map (·.disown) }

/-- The modules differ in the owners of methods at most. -/
def SameButOwners (m other : ModuleDecl) : Prop := m.disown = other.disown

theorem adopt_disown (m : ModuleDecl) : m.disown.adopt = m.adopt := by
  simp only [adopt, disown, List.map_map, Function.comp_def, ClassDecl.adopt_disown]

theorem disown_adopt (m : ModuleDecl) : m.adopt.disown = m.disown := by
  simp only [adopt, disown, List.map_map, Function.comp_def, ClassDecl.disown_adopt]

/-- Adopting the methods forgets their owners and nothing else. -/
theorem adopt_eq_adopt_iff {m other : ModuleDecl} :
    m.adopt = other.adopt ↔ m.SameButOwners other := by
  constructor
  · intro same
    rw [SameButOwners, ← disown_adopt m, same, disown_adopt]
  · intro same
    rw [← adopt_disown m, same, adopt_disown]

theorem adopt_adopt (m : ModuleDecl) : m.adopt.adopt = m.adopt :=
  adopt_eq_adopt_iff.mpr (disown_adopt m)

end ModuleDecl

/-! ## Modules built step by step -/

/-- The step without the owners that it brings along; none for an adoption. -/
def Edit.disown? : Edit → Option Edit
  | .addClass name methods => some (.addClass name (methods.map (·.disown)))
  | .pushMethod index f => some (.pushMethod index f.disown)
  | .adopt => none
  | step => some step

/-- What is left of a step without owners brings none along. -/
theorem Edit.disown?_of_disown? {step bare : Edit} (leaves : step.disown? = some bare) :
    bare.disown? = some bare := by
  cases step with
  | addClass name methods =>
    cases leaves
    simp [disown?, FunctionDecl.disown]
  | adopt => cases leaves
  | _ =>
    cases leaves
    rfl

namespace ClassDecl

/-- Methods that are appended one by one are owned by the class and otherwise as they were. -/
theorem ofMethods_eq (name : String) (methods : List FunctionDecl) :
    ofMethods name methods = ⟨name, methods.map fun f => { f with owner := some name }⟩ := by
  have appended : ∀ before : List FunctionDecl,
      methods.foldl addMethod ⟨name, before⟩ =
        ⟨name, before ++ methods.map fun f => { f with owner := some name }⟩ := by
    induction methods with
    | nil => simp
    | cons f rest ih => simp [addMethod, ih]
  exact appended []

theorem disown_ofMethods (name : String) (methods : List FunctionDecl) :
    (ofMethods name (methods.map (·.disown))).disown = (ofMethods name methods).disown := by
  simp only [ofMethods_eq, disown, List.map_map, Function.comp_def, FunctionDecl.disown]

end ClassDecl

namespace ModuleDecl

/-- The module after a run of steps. -/
def editAll (m : ModuleDecl) (steps : List Edit) : ModuleDecl := steps.foldl edit m

/-- A change of one class may be made before owners are left out or afterwards. -/
theorem map_disown_modify {change bare : ClassDecl → ClassDecl} (classes : List ClassDecl)
    (index : Nat) (each : ∀ c, (change c).disown = (bare c.disown).disown) :
    (classes.modify index change).map (·.disown) =
      ((classes.map (·.disown)).modify index bare).map (·.disown) := by
  induction classes generalizing index with
  | nil => simp
  | cons c rest ih =>
    cases index with
    | zero => simp [each, ClassDecl.disown_disown]
    | succ index => simp [ih, ClassDecl.disown_disown]

theorem disown_disown (m : ModuleDecl) : m.disown.disown = m.disown := by
  simp [disown, ClassDecl.disown_disown]

/-- A step does to a module what it does without owners to the module without owners; an adoption
does nothing. -/
theorem disown_edit (m : ModuleDecl) (step : Edit) :
    (m.edit step).disown = (step.disown?.elim m.disown m.disown.edit).disown := by
  cases step with
  | credit author year => simp [edit, Edit.disown?, disown, ClassDecl.disown_disown]
  | addFunction f => simp [edit, Edit.disown?, disown, ClassDecl.disown_disown]
  | addClass name methods =>
    simp [edit, Edit.disown?, disown, ClassDecl.disown_disown, ClassDecl.disown_ofMethods]
  | pushMethod index f =>
    refine congrArg (ModuleDecl.mk m.name m.author m.year m.functions) ?_
    exact map_disown_modify m.classes index fun c => by
      simp [ClassDecl.pushMethod, ClassDecl.disown, FunctionDecl.disown]
  | renameClass index name =>
    refine congrArg (ModuleDecl.mk m.name m.author m.year m.functions) ?_
    exact map_disown_modify m.classes index fun c => by
      simp [ClassDecl.disown, FunctionDecl.disown]
  | renameModule name => simp [edit, Edit.disown?, disown, ClassDecl.disown_disown]
  | adopt =>
    show m.adopt.disown = m.disown.disown
    rw [disown_adopt, disown_disown]

theorem SameButOwners.edit {m other : ModuleDecl} {step bare : Edit} (same : m.SameButOwners other)
    (leaves : step.disown? = some bare) : (m.edit step).SameButOwners (other.edit bare) := by
  have again := Edit.disown?_of_disown? leaves
  rw [SameButOwners, disown_edit m, disown_edit other, leaves, again, Option.elim_some,
    Option.elim_some, same]

/-- A run of steps builds the same as what is left of it without owners and adoptions. -/
theorem SameButOwners.editAll {m other : ModuleDecl} (same : m.SameButOwners other)
    (steps : List Edit) :
    (m.editAll steps).SameButOwners (other.editAll (steps.filterMap Edit.disown?)) := by
  induction steps generalizing m other with
  | nil => exact same
  | cons step rest ih =>
    cases leaves : step.disown? with
    | none =>
      rw [List.filterMap_cons_none leaves]
      refine ih (m := m.edit step) ?_
      rw [SameButOwners, disown_edit, leaves, Option.elim_none, disown_disown, same]
    | some bare =>
      rw [List.filterMap_cons_some leaves]
      exact ih (same.edit leaves)

/-- Runs that agree but for owners and adoptions build modules that do. -/
theorem sameButOwners_of_runs {m other : ModuleDecl} {steps others : List Edit}
    (same : m.SameButOwners other)
    (alike : steps.filterMap Edit.disown? = others.filterMap Edit.disown?) :
    (m.editAll steps).SameButOwners (other.editAll others) := by
  have first := same.editAll steps
  have second := SameButOwners.editAll (m := other) rfl others
  rw [alike] at first
  exact first.trans second.symm

/-! ## Loading -/

/-- A text loads as what it describes, once adopted, if this has the name asked for and is valid. -/
theorem parse_eq_ok_iff {name text : String} {m : ModuleDecl} :
    parse name text = .ok m ↔
      ∃ d, ofJson text = .ok d ∧ d.name = name ∧ d.adopt.validate = .ok () ∧ m = d.adopt := by
  unfold parse
  cases ofJson text with
  | error fault => exact iff_of_false nofun fun ⟨_, impossible, _⟩ => nomatch impossible
  | ok d =>
    dsimp only
    split
    · next named =>
      constructor
      · intro loaded
        cases valid : d.adopt.validate with
        | error fault =>
          rw [valid] at loaded
          cases loaded
        | ok =>
          rw [valid] at loaded
          cases loaded
          exact ⟨d, rfl, named, valid, rfl⟩
      · rintro ⟨_, ⟨⟩, -, valid, rfl⟩
        rw [valid]
        rfl
    · next other =>
      refine iff_of_false nofun ?_
      rintro ⟨_, ⟨⟩, named, -⟩
      exact other named

/-- What a text describes fails to load under its own name exactly as it fails to be valid. -/
theorem parse_eq_error_iff {text : String} {d : ModuleDecl} (described : ofJson text = .ok d)
    {fault : Fault} : parse d.name text = .error fault ↔ d.adopt.validate = .error fault := by
  rw [parse, described]
  dsimp only
  rw [if_pos rfl]
  cases d.adopt.validate with
  | error first =>
    constructor
    · rintro ⟨⟩
      rfl
    · rintro ⟨⟩
      rfl
  | ok => exact iff_of_false nofun nofun

end ModuleDecl

/-! ## Generating -/

/-- Planning blames no descriptor as a whole. -/
theorem ModulePlan.ofDecl_ne_descriptor (m : ModuleDecl) (module : String)
    (reason : DescriptorFault) : ofDecl m ≠ .error (.descriptor module reason) := by
  intro failed
  obtain ⟨before, f, after, -, -, failed⟩ := ofDecl_eq_error_iff.mp failed
  generalize fault : Fault.descriptor module reason = blamed at failed
  cases FunctionPlan.ofDecl_eq_error_iff.mp failed with
  | shape failed =>
    obtain ⟨_, -, rfl⟩ := mapError_eq_error_iff.mp failed
    cases fault
  | typeHint => cases fault

namespace Artifact

variable {layout : Layout}

theorem generateWith_of_sameButOwners {m other : ModuleDecl} (same : m.SameButOwners other) :
    generateWith layout m = generateWith layout other := by
  rw [generateWith, generateWith, ModulePlan.ofValid, ModulePlan.ofValid,
    ModuleDecl.adopt_eq_adopt_iff.mpr same]

/-- Generating gives the same artifacts or the same fault for modules that differ in the owners of
methods at most, among them all that are built in runs that differ in owners and adoptions at most.
A module that was loaded has the name asked for, has been adopted and found valid; generating from
it is generating from what its text describes, and blames no descriptor. Where a text does not load
under the name that it declares, generating from what it describes fails with the same fault. -/
theorem generateWith_owners (layout : Layout) :
    (∀ m other : ModuleDecl, m.SameButOwners other →
      generateWith layout m = generateWith layout other) ∧
    (∀ (m other : ModuleDecl) (steps others : List Edit), m.SameButOwners other →
      steps.filterMap Edit.disown? = others.filterMap Edit.disown? →
      generateWith layout (m.editAll steps) = generateWith layout (other.editAll others)) ∧
    (∀ (name text : String) (m : ModuleDecl), ModuleDecl.parse name text = .ok m →
      m.name = name ∧ m.adopt = m ∧ m.validate = .ok () ∧
      (∃ d, ModuleDecl.ofJson text = .ok d ∧ generateWith layout m = generateWith layout d) ∧
      ∀ module reason, generateWith layout m ≠ .error (.descriptor module reason)) ∧
    ∀ (name text : String) (d : ModuleDecl) (fault : Fault), ModuleDecl.ofJson text = .ok d →
      d.name = name → ModuleDecl.parse name text = .error fault →
      generateWith layout d = .error fault := by
  refine ⟨fun m other => generateWith_of_sameButOwners, ?_, ?_, ?_⟩
  · intro m other steps others same alike
    exact generateWith_of_sameButOwners (ModuleDecl.sameButOwners_of_runs same alike)
  · intro name text m loaded
    obtain ⟨d, described, named, valid, rfl⟩ := ModuleDecl.parse_eq_ok_iff.mp loaded
    have adopted := d.adopt_adopt
    refine ⟨named, adopted, valid, ⟨d, described, ?_⟩, fun module reason failed => ?_⟩
    · exact generateWith_of_sameButOwners d.disown_adopt
    · rcases bind_eq_error_iff.mp (generateWith_eq_error_iff.mp failed) with failed | ⟨_, -, failed⟩
      · rw [adopted, valid] at failed
        cases failed
      · exact ModulePlan.ofDecl_ne_descriptor _ module reason failed
  · rintro _ text d fault described rfl failed
    refine generateWith_eq_error_iff.mpr (bind_eq_error_iff.mpr (.inl ?_))
    exact (ModuleDecl.parse_eq_error_iff described).mp failed

/-- The constructor of a class, owned by whatever is given. -/
def makerOf (owner : String) : FunctionDecl :=
  ⟨constructorName, some owner, [receiver], false, false, none, none⟩

/-- A class whose constructors are owned by whatever is given. -/
def classOwnedBy (owners : List String) : ClassDecl := ⟨"C", owners.map makerOf⟩

/-- A descriptor with one class, whose constructors name these owners. -/
def ownersText (owners : List String) : String :=
  "\x7b\"name\":\"m\",\"classes\":[\x7b\"name\":\"C\",\"methods\":[" ++
    ",".intercalate (owners.map fun owner => "\x7b\"name\":\"__init__\",\"owner\":\"" ++ owner ++
      "\",\"params\":[\x7b\"name\":\"self\"\x7d]\x7d") ++ "]\x7d]\x7d"

/-- Owners left behind by a renamed class, or told by a text, do not matter; a text with two
constructors in a class does not load, and nothing is generated from what it describes. -/
theorem classOwnedBy_generates :
    generateWith .standard ((ModuleDecl.empty "m").editAll
        [.addClass "Old" [makerOf "Older"], .renameClass 0 "C"]) =
      generateWith .standard ((ModuleDecl.empty "m").editAll
        [.addClass "Old" [makerOf "Oldest"], .adopt, .renameClass 0 "C", .adopt]) ∧
    (∃ d, ModuleDecl.ofJson (ownersText ["Old"]) = .ok d ∧
      generateWith .standard ⟨"m", none, none, [], [classOwnedBy ["C"]]⟩ =
        generateWith .standard d) ∧
    generateWith .standard ⟨"m", none, none, [], [classOwnedBy ["Old", "C"]]⟩ =
      .error (.descriptor "m" (.severalConstructors "C" 2)) := by
  obtain ⟨-, runs, loads, fails⟩ := generateWith_owners .standard
  have loaded : ModuleDecl.parse "m" (ownersText ["Old"]) =
      .ok ⟨"m", none, none, [], [classOwnedBy ["C"]]⟩ := by decide +kernel
  have described : ModuleDecl.ofJson (ownersText ["Old", "C"]) =
      .ok ⟨"m", none, none, [], [classOwnedBy ["Old", "C"]]⟩ := by decide +kernel
  have failed : ModuleDecl.parse "m" (ownersText ["Old", "C"]) =
      .error (.descriptor "m" (.severalConstructors "C" 2)) := by decide +kernel
  obtain ⟨-, -, -, generates, -⟩ := loads _ _ _ loaded
  exact ⟨runs _ _ _ _ rfl rfl, generates, fails _ _ _ _ described rfl failed⟩

end Artifact

end BindingGen
