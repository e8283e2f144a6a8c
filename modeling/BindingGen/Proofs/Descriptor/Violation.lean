import BindingGen.Proofs.Constructor
import BindingGen.Proofs.Text.Identifier

/-!
# What a module is turned down for

The check of a module is three loops inside each other, which hand on the names seen so far and
stop at the first thing that is wrong. `Acceptable` is what it comes to, said of the declared names
without any order: they are spelled like identifiers, and those that share a scope differ. `Breaks`
says of each fault what it claims about the module.

A name that is met again is one that its scope declares twice. What has been seen and what is still
to come always make up the whole scope, so that the count of a name in both does not change when
the loop goes on (`count_seen`).

Results:
1. `FunctionDecl.breaks_of_check`, `ClassDecl.breaks_of_check`, `ModuleDecl.breaks_of_check`: a
   fault is reported only where what it claims is the case.
2. `ModuleDecl.wellNamed_iff`: the conditions of the single parts come to those of the whole module.
3. `ModuleDecl.validate_outcome`: a module is found valid if and only if it is acceptable, and
   otherwise the fault names the module and something that is wrong with it.
-/

namespace BindingGen

/-! ## Faults and what they claim -/

/-- `Breaks f fault`: the names of the function and of its parameters are as the fault claims. -/
inductive FunctionDecl.Breaks (f : FunctionDecl) : DescriptorFault → Prop
  | name : f.name.toList ∉ Text.identifiers → Breaks f (.badName .function f.name)
  | parameter {p : Parameter} : p ∈ f.params → p.name.toList ∉ Text.identifiers →
      Breaks f (.badName .parameter p.name)
  | repeated {name : String} : 1 < (f.params.map (·.name)).count name →
      Breaks f (.repeatedParameter name f.qualifiedName)

/-- `Breaks c fault`: the names of the class and of its methods are as the fault claims. -/
inductive ClassDecl.Breaks (c : ClassDecl) : DescriptorFault → Prop
  | name : c.name.toList ∉ Text.identifiers → Breaks c (.badName .ofClass c.name)
  | constructors : 1 < c.constructors.length →
      Breaks c (.severalConstructors c.name c.constructors.length)
  | method {f : FunctionDecl} {fault : DescriptorFault} : f ∈ c.methods → f.Breaks fault →
      Breaks c fault
  | repeated {name : String} : 1 < (c.ordinary.map (·.name)).count name →
      Breaks c (.repeatedName (.ofClass c.name) name)

/-- `Breaks m fault`: the names that the module declares are as the fault claims. -/
inductive ModuleDecl.Breaks (m : ModuleDecl) : DescriptorFault → Prop
  | name : m.name.toList ∉ Text.identifiers → Breaks m (.badName .module m.name)
  | function {f : FunctionDecl} {fault : DescriptorFault} : f ∈ m.functions → f.Breaks fault →
      Breaks m fault
  | ofClass {c : ClassDecl} {fault : DescriptorFault} : c ∈ m.classes → c.Breaks fault →
      Breaks m fault
  | repeated {name : String} :
      1 < (m.functions.map (·.name) ++ m.classes.map (·.name)).count name →
      Breaks m (.repeatedName .module name)

/-! ## Acceptable modules -/

namespace ModuleDecl

/-- All names that a module declares, its own among them. -/
def names (m : ModuleDecl) : List String :=
  m.name :: (m.classes.map (·.name) ++ m.callables.flatMap fun f => f.name :: f.params.map (·.name))

/-- Every name is spelled like an identifier. Functions and classes differ from each other, the
methods of a class do, its constructor apart, which is the only one, and the parameters of a
function or method do. -/
structure Acceptable (m : ModuleDecl) : Prop where
  names : ∀ name ∈ m.names, name.toList ∈ Text.identifiers
  globals : (m.functions.map (·.name) ++ m.classes.map (·.name)).Nodup
  constructors : ∀ c ∈ m.classes, c.constructors.length ≤ 1
  methods : ∀ c ∈ m.classes, (c.ordinary.map (·.name)).Nodup
  parameters : ∀ f ∈ m.callables, (f.params.map (·.name)).Nodup

end ModuleDecl

/-! ## Single checks -/

theorem checkName_eq_error_iff {role : NameRole} {name : String} {fault : DescriptorFault} :
    checkName role name = .error fault ↔
      name.toList ∉ Text.identifiers ∧ fault = .badName role name := by
  rw [← Text.isIdentifier_iff, checkName]
  split
  · next valid => exact iff_of_false nofun fun broken => broken.1 valid
  · next invalid =>
    constructor
    · rintro ⟨⟩
      exact ⟨invalid, rfl⟩
    · rintro ⟨-, rfl⟩
      rfl

theorem checkFresh_eq_error_iff {scope : Scope} {seen : List String} {name : String}
    {fault : DescriptorFault} :
    checkFresh scope seen name = .error fault ↔ name ∈ seen ∧ fault = .repeatedName scope name := by
  rw [checkFresh, List.contains_eq_mem]
  split
  · next found =>
    constructor
    · rintro ⟨⟩
      exact ⟨of_decide_eq_true found, rfl⟩
    · rintro ⟨-, rfl⟩
      rfl
  · next fresh => exact iff_of_false nofun fun broken => fresh (decide_eq_true broken.1)

/-- A name that is passed goes from the ones to come to those seen, and the count of every name in
both stays the same. -/
theorem count_seen (seen names : List String) (passed name : String) :
    ((passed :: seen) ++ names).count name = (seen ++ passed :: names).count name :=
  (List.perm_middle.count_eq name).symm

/-- A name that has been seen and comes again is there more than once. -/
theorem one_lt_count_of_seen {seen names : List String} {name : String} (found : name ∈ seen) :
    1 < (seen ++ name :: names).count name := by
  have before := List.count_pos_iff.mpr found
  rw [List.count_append, List.count_cons_self]
  omega

/-! ## Functions -/

namespace FunctionDecl

variable {f : FunctionDecl} {fault : DescriptorFault}

theorem checkParams_eq_error {seen : List String} {params : List Parameter}
    (failed : f.checkParams seen params = .error fault) :
    (∃ p ∈ params, p.name.toList ∉ Text.identifiers ∧ fault = .badName .parameter p.name) ∨
      ∃ name, 1 < (seen ++ params.map (·.name)).count name ∧
        fault = .repeatedParameter name f.qualifiedName := by
  induction params generalizing seen with
  | nil => cases failed
  | cons p rest ih =>
    rw [checkParams] at failed
    rcases bind_eq_error_iff.mp failed with failed | ⟨-, -, failed⟩
    · obtain ⟨broken, rfl⟩ := checkName_eq_error_iff.mp failed
      exact .inl ⟨p, List.mem_cons_self, broken, rfl⟩
    · by_cases found : p.name ∈ seen
      · rw [List.contains_eq_mem, if_pos (decide_eq_true found)] at failed
        cases failed
        exact .inr ⟨p.name, one_lt_count_of_seen found, rfl⟩
      · rw [List.contains_eq_mem, if_neg (by simpa using found)] at failed
        rcases ih failed with ⟨q, later, broken, rfl⟩ | ⟨name, twice, rfl⟩
        · exact .inl ⟨q, List.mem_cons_of_mem _ later, broken, rfl⟩
        · exact .inr ⟨name, count_seen seen _ p.name name ▸ twice, rfl⟩

theorem breaks_of_check (failed : f.check = .error fault) : f.Breaks fault := by
  rcases bind_eq_error_iff.mp failed with failed | ⟨-, -, failed⟩
  · obtain ⟨broken, rfl⟩ := checkName_eq_error_iff.mp failed
    exact .name broken
  · rcases checkParams_eq_error failed with ⟨p, member, broken, rfl⟩ | ⟨name, twice, rfl⟩
    · exact .parameter member broken
    · exact .repeated twice

end FunctionDecl

/-! ## Classes -/

namespace ClassDecl

variable {c : ClassDecl} {fault : DescriptorFault}

theorem checkMethods_eq_error {seen : List String} {methods : List FunctionDecl}
    (failed : c.checkMethods seen methods = .error fault) :
    (∃ f ∈ methods, f.Breaks fault) ∨
      ∃ name, 1 < (seen ++ (methods.filter (·.name != constructorName)).map (·.name)).count name ∧
        fault = .repeatedName (.ofClass c.name) name := by
  induction methods generalizing seen with
  | nil => cases failed
  | cons f rest ih =>
    rw [checkMethods] at failed
    rcases bind_eq_error_iff.mp failed with failed | ⟨-, -, failed⟩
    · exact .inl ⟨f, List.mem_cons_self, FunctionDecl.breaks_of_check failed⟩
    · cases named : f.name == constructorName with
      | true =>
        rw [named, if_pos rfl] at failed
        rw [List.filter_cons_of_neg (by simp [bne, named])]
        rcases ih failed with ⟨g, later, broken⟩ | repeated
        · exact .inl ⟨g, List.mem_cons_of_mem _ later, broken⟩
        · exact .inr repeated
      | false =>
        rw [named, if_neg Bool.false_ne_true] at failed
        rw [List.filter_cons_of_pos (by simp [bne, named]), List.map_cons]
        rcases bind_eq_error_iff.mp failed with failed | ⟨-, -, failed⟩
        · obtain ⟨found, rfl⟩ := checkFresh_eq_error_iff.mp failed
          exact .inr ⟨f.name, one_lt_count_of_seen found, rfl⟩
        · rcases ih failed with ⟨g, later, broken⟩ | ⟨name, twice, rfl⟩
          · exact .inl ⟨g, List.mem_cons_of_mem _ later, broken⟩
          · exact .inr ⟨name, count_seen seen _ f.name name ▸ twice, rfl⟩

theorem breaks_of_check (failed : c.check = .error fault) : c.Breaks fault := by
  rw [check] at failed
  by_cases several : 1 < c.constructors.length
  · rw [if_pos several] at failed
    cases failed
    exact .constructors several
  · rw [if_neg several] at failed
    rcases checkMethods_eq_error failed with ⟨f, member, broken⟩ | ⟨name, twice, rfl⟩
    · exact .method member broken
    · exact .repeated twice

end ClassDecl

/-! ## Modules -/

namespace ModuleDecl

variable {m : ModuleDecl} {fault : DescriptorFault}

theorem checkFunctions_eq_error {seen : List String} {functions : List FunctionDecl}
    (failed : checkFunctions seen functions = .error fault) :
    (∃ f ∈ functions, f.Breaks fault) ∨
      ∃ name, 1 < (seen ++ functions.map (·.name)).count name ∧
        fault = .repeatedName .module name := by
  induction functions generalizing seen with
  | nil => cases failed
  | cons f rest ih =>
    rw [checkFunctions] at failed
    rcases bind_eq_error_iff.mp failed with failed | ⟨-, -, failed⟩
    · exact .inl ⟨f, List.mem_cons_self, FunctionDecl.breaks_of_check failed⟩
    · rcases bind_eq_error_iff.mp failed with failed | ⟨-, -, failed⟩
      · obtain ⟨found, rfl⟩ := checkFresh_eq_error_iff.mp failed
        exact .inr ⟨f.name, one_lt_count_of_seen found, rfl⟩
      · rcases ih failed with ⟨g, later, broken⟩ | ⟨name, twice, rfl⟩
        · exact .inl ⟨g, List.mem_cons_of_mem _ later, broken⟩
        · exact .inr ⟨name, count_seen seen _ f.name name ▸ twice, rfl⟩

theorem checkClasses_eq_error {seen : List String} {classes : List ClassDecl}
    (failed : checkClasses seen classes = .error fault) :
    (∃ c ∈ classes, c.Breaks fault) ∨
      ∃ name, 1 < (seen ++ classes.map (·.name)).count name ∧
        fault = .repeatedName .module name := by
  induction classes generalizing seen with
  | nil => cases failed
  | cons c rest ih =>
    rw [checkClasses] at failed
    rcases bind_eq_error_iff.mp failed with failed | ⟨-, -, failed⟩
    · obtain ⟨broken, rfl⟩ := checkName_eq_error_iff.mp failed
      exact .inl ⟨c, List.mem_cons_self, .name broken⟩
    · rcases bind_eq_error_iff.mp failed with failed | ⟨-, -, failed⟩
      · obtain ⟨found, rfl⟩ := checkFresh_eq_error_iff.mp failed
        exact .inr ⟨c.name, one_lt_count_of_seen found, rfl⟩
      · rcases bind_eq_error_iff.mp failed with failed | ⟨-, -, failed⟩
        · exact .inl ⟨c, List.mem_cons_self, ClassDecl.breaks_of_check failed⟩
        · rcases ih failed with ⟨d, later, broken⟩ | ⟨name, twice, rfl⟩
          · exact .inl ⟨d, List.mem_cons_of_mem _ later, broken⟩
          · exact .inr ⟨name, count_seen seen _ c.name name ▸ twice, rfl⟩

theorem breaks_of_check (failed : m.check = .error fault) : m.Breaks fault := by
  rcases bind_eq_error_iff.mp failed with failed | ⟨-, -, failed⟩
  · obtain ⟨broken, rfl⟩ := checkName_eq_error_iff.mp failed
    exact .name broken
  · rcases bind_eq_error_iff.mp failed with failed | ⟨seen, passed, failed⟩
    · rcases checkFunctions_eq_error failed with ⟨f, member, broken⟩ | ⟨name, twice, rfl⟩
      · exact .function member broken
      · refine .repeated ?_
        rw [List.count_append]
        exact Nat.lt_add_right _ twice
    · obtain ⟨-, -, rfl⟩ := checkFunctions_eq_ok_iff.mp passed
      rcases checkClasses_eq_error failed with ⟨c, member, broken⟩ | ⟨name, twice, rfl⟩
      · exact .ofClass member broken
      · refine .repeated ?_
        rwa [List.append_nil, List.count_append, List.count_reverse, ← List.count_append] at twice

/-- The parts of a module are well named if and only if the whole is acceptable. -/
theorem wellNamed_iff : m.WellNamed ↔ m.Acceptable := by
  have spelled : (∀ name ∈ m.names, name.toList ∈ Text.identifiers) ↔
      Text.isIdentifier m.name = true ∧ (∀ c ∈ m.classes, Text.isIdentifier c.name = true) ∧
        ∀ f ∈ m.callables, Text.isIdentifier f.name = true ∧
          ∀ p ∈ f.params, Text.isIdentifier p.name = true := by
    simp only [names, ← Text.isIdentifier_iff, List.forall_mem_cons, List.forall_mem_append,
      List.forall_mem_map, List.forall_mem_flatMap]
  constructor
  · rintro ⟨name, functions, classes, distinct⟩
    have callables : ∀ f ∈ m.callables, f.WellNamed := by
      rw [callables, List.forall_mem_append, List.forall_mem_flatMap]
      exact ⟨functions, fun c member => (classes c member).methods⟩
    refine ⟨spelled.mpr ⟨name, fun c member => (classes c member).name, fun f member => ?_⟩,
      distinct, fun c member => (classes c member).single,
      fun c member => (classes c member).distinct, fun f member => (callables f member).distinct⟩
    exact ⟨(callables f member).name, (callables f member).params⟩
  · rintro ⟨all, distinct, single, methods, parameters⟩
    obtain ⟨name, classes, callables⟩ := spelled.mp all
    have wellNamed : ∀ f ∈ m.callables, f.WellNamed := fun f member =>
      ⟨(callables f member).1, (callables f member).2, parameters f member⟩
    rw [ModuleDecl.callables, List.forall_mem_append, List.forall_mem_flatMap] at wellNamed
    exact ⟨name, wellNamed.1, fun c member =>
      ⟨classes c member, wellNamed.2 c member, single c member, methods c member⟩, distinct⟩

/-- A module is found valid if and only if it is acceptable. Otherwise the fault names the module
and claims something that is the case. -/
theorem validate_outcome (m : ModuleDecl) :
    (m.validate = .ok () ↔ m.Acceptable) ∧
      (¬ m.Acceptable ↔
        ∃ reason, m.Breaks reason ∧ m.validate = .error (.descriptor m.name reason)) := by
  have valid : m.validate = .ok () ↔ m.Acceptable := by
    rw [validate, mapError_eq_ok_iff, check_eq_ok_iff, wellNamed_iff]
  refine ⟨valid, ?_⟩
  rw [← valid]
  constructor
  · intro refused
    cases checked : m.check with
    | ok passed => exact absurd (mapError_eq_ok_iff.mpr checked) refused
    | error reason =>
      exact ⟨reason, breaks_of_check checked, mapError_eq_error_iff.mpr ⟨reason, checked, rfl⟩⟩
  · rintro ⟨reason, -, failed⟩ passed
    cases failed.symm.trans passed

end ModuleDecl

end BindingGen
