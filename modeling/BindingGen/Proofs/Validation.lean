import BindingGen.Proofs.Plan

/-!
# What a valid module satisfies

The check of a module goes through its declarations once, with the names seen so far. Here each part
of it is given by a condition that mentions neither order nor faults: names are identifiers, and
they differ where they share a scope. `Fresh seen names` is what is left to be met when the names
`seen` have been passed.

Results:
1. `FunctionDecl.check_eq_ok_iff`, `ClassDecl.check_eq_ok_iff`: functions and classes by themselves.
2. `ModuleDecl.check_eq_ok_iff`: a module passes if and only if it is well named.
-/

namespace BindingGen

/-! ## Names seen so far -/

/-- `Fresh seen names`: the names differ from each other and from those seen before. -/
structure Fresh (seen names : List String) : Prop where
  nodup : names.Nodup
  unseen : ∀ name ∈ names, name ∉ seen

theorem fresh_nil {seen : List String} : Fresh seen [] := ⟨List.nodup_nil, nofun⟩

/-- A name is fresh, and the later ones are when it has been seen as well. -/
theorem fresh_cons {seen names : List String} {name : String} :
    Fresh seen (name :: names) ↔ name ∉ seen ∧ Fresh (name :: seen) names := by
  constructor
  · rintro ⟨nodup, unseen⟩
    obtain ⟨single, nodup⟩ := List.nodup_cons.mp nodup
    refine ⟨unseen name List.mem_cons_self, nodup, fun other member found => ?_⟩
    rcases List.mem_cons.mp found with rfl | found
    · exact single member
    · exact unseen other (List.mem_cons_of_mem _ member) found
  · rintro ⟨first, nodup, unseen⟩
    refine ⟨List.nodup_cons.mpr ⟨fun member => unseen name member List.mem_cons_self, nodup⟩, ?_⟩
    intro other member
    rcases List.mem_cons.mp member with rfl | later
    · exact first
    · exact fun found => unseen other later (List.mem_cons_of_mem _ found)

theorem fresh_iff_nodup {names : List String} : Fresh [] names ↔ names.Nodup :=
  ⟨Fresh.nodup, fun nodup => ⟨nodup, fun _ _ => List.not_mem_nil⟩⟩

/-- Names are fresh in two runs where the second has seen those of the first, in any order. -/
theorem fresh_append {seen before after : List String} :
    Fresh seen (before ++ after) ↔
      Fresh seen before ∧ Fresh (before.reverse ++ seen) after := by
  induction before generalizing seen with
  | nil => exact ⟨fun fresh => ⟨fresh_nil, fresh⟩, And.right⟩
  | cons name names ih =>
    rw [List.cons_append, fresh_cons, fresh_cons, ih, and_assoc, List.reverse_cons,
      List.append_assoc]
    rfl

theorem checkName_eq_ok_iff {role : NameRole} {name : String} :
    checkName role name = .ok () ↔ Text.isIdentifier name = true := by
  unfold checkName
  split
  · next valid => exact iff_of_true rfl valid
  · next invalid => exact iff_of_false nofun invalid

theorem checkFresh_eq_ok_iff {scope : Scope} {seen : List String} {name : String} :
    checkFresh scope seen name = .ok () ↔ name ∉ seen := by
  unfold checkFresh
  split
  · next found => exact iff_of_false nofun (fun fresh => fresh (List.contains_iff_mem.mp found))
  · next fresh => exact iff_of_true rfl fun found => fresh (List.contains_iff_mem.mpr found)

/-! ## Functions -/

/-- The names of a function and its parameters are identifiers, and the parameters differ. -/
structure FunctionDecl.WellNamed (f : FunctionDecl) : Prop where
  name : Text.isIdentifier f.name = true
  params : ∀ p ∈ f.params, Text.isIdentifier p.name = true
  distinct : (f.params.map (·.name)).Nodup

namespace FunctionDecl

variable {f : FunctionDecl}

theorem checkParams_eq_ok_iff {seen : List String} {params : List Parameter} :
    f.checkParams seen params = .ok () ↔
      (∀ p ∈ params, Text.isIdentifier p.name = true) ∧ Fresh seen (params.map (·.name)) := by
  induction params generalizing seen with
  | nil => exact iff_of_true rfl ⟨nofun, fresh_nil⟩
  | cons p rest ih =>
    rw [checkParams, check_bind_eq_ok_iff, checkName_eq_ok_iff, List.forall_mem_cons,
      List.map_cons, fresh_cons, List.contains_eq_mem]
    by_cases seenBefore : p.name ∈ seen
    · rw [if_pos (decide_eq_true seenBefore)]
      exact iff_of_false (fun valid => nomatch valid.2) fun valid => valid.2.1 seenBefore
    · rw [if_neg (by simpa using seenBefore)]
      constructor
      · rintro ⟨identifier, rest⟩
        obtain ⟨identifiers, fresh⟩ := ih.mp rest
        exact ⟨⟨identifier, identifiers⟩, seenBefore, fresh⟩
      · rintro ⟨⟨identifier, identifiers⟩, -, fresh⟩
        exact ⟨identifier, ih.mpr ⟨identifiers, fresh⟩⟩

theorem check_eq_ok_iff : f.check = .ok () ↔ f.WellNamed := by
  rw [check, check_bind_eq_ok_iff, checkName_eq_ok_iff, checkParams_eq_ok_iff, fresh_iff_nodup]
  constructor
  · rintro ⟨identifier, params, distinct⟩
    exact ⟨identifier, params, distinct⟩
  · rintro ⟨identifier, params, distinct⟩
    exact ⟨identifier, params, distinct⟩

end FunctionDecl

/-! ## Classes -/

/-- The methods of a class that do not have the name of a constructor. -/
def ClassDecl.ordinary (c : ClassDecl) : List FunctionDecl :=
  c.methods.filter (·.name != constructorName)

/-- A class is named by an identifier, its methods are well named, at most one of them has the name
of a constructor, and the others differ. -/
structure ClassDecl.WellNamed (c : ClassDecl) : Prop where
  name : Text.isIdentifier c.name = true
  methods : ∀ f ∈ c.methods, f.WellNamed
  single : c.constructors.length ≤ 1
  distinct : (c.ordinary.map (·.name)).Nodup

namespace ClassDecl

variable {c : ClassDecl}

theorem checkMethods_eq_ok_iff {seen : List String} {methods : List FunctionDecl} :
    c.checkMethods seen methods = .ok () ↔
      (∀ f ∈ methods, f.WellNamed) ∧
        Fresh seen ((methods.filter (·.name != constructorName)).map (·.name)) := by
  induction methods generalizing seen with
  | nil => exact iff_of_true rfl ⟨nofun, fresh_nil⟩
  | cons f rest ih =>
    rw [checkMethods, check_bind_eq_ok_iff, FunctionDecl.check_eq_ok_iff, List.forall_mem_cons]
    cases named : f.name == constructorName with
    | true =>
      rw [List.filter_cons_of_neg (by simp [bne, named]), if_pos rfl, ih, and_assoc]
    | false =>
      rw [List.filter_cons_of_pos (by simp [bne, named]), if_neg Bool.false_ne_true, List.map_cons,
        fresh_cons, check_bind_eq_ok_iff, checkFresh_eq_ok_iff, ih]
      constructor
      · rintro ⟨first, unseen, rest, fresh⟩
        exact ⟨⟨first, rest⟩, unseen, fresh⟩
      · rintro ⟨⟨first, rest⟩, unseen, fresh⟩
        exact ⟨first, unseen, rest, fresh⟩

/-- A class by itself; its own name is checked by the module. -/
theorem check_eq_ok_iff :
    Text.isIdentifier c.name = true ∧ c.check = .ok () ↔ c.WellNamed := by
  rw [check]
  by_cases several : 1 < c.constructors.length
  · rw [if_pos several]
    refine iff_of_false ?_ fun valid => Nat.not_lt_of_le valid.single several
    rintro ⟨-, impossible⟩
    cases impossible
  · rw [if_neg several]
    constructor
    · rintro ⟨identifier, checked⟩
      obtain ⟨methods, distinct⟩ := checkMethods_eq_ok_iff.mp checked
      exact ⟨identifier, methods, Nat.le_of_not_lt several, fresh_iff_nodup.mp distinct⟩
    · rintro ⟨identifier, methods, -, distinct⟩
      exact ⟨identifier, checkMethods_eq_ok_iff.mpr ⟨methods, fresh_iff_nodup.mpr distinct⟩⟩

end ClassDecl

/-! ## Modules -/

/-- A module is named by an identifier, what it declares is well named, and its functions and
classes differ. -/
structure ModuleDecl.WellNamed (m : ModuleDecl) : Prop where
  name : Text.isIdentifier m.name = true
  functions : ∀ f ∈ m.functions, f.WellNamed
  classes : ∀ c ∈ m.classes, c.WellNamed
  distinct : (m.functions.map (·.name) ++ m.classes.map (·.name)).Nodup

namespace ModuleDecl

theorem checkFunctions_eq_ok_iff {seen names : List String} {functions : List FunctionDecl} :
    checkFunctions seen functions = .ok names ↔
      (∀ f ∈ functions, f.WellNamed) ∧ Fresh seen (functions.map (·.name)) ∧
        names = (functions.map (·.name)).reverse ++ seen := by
  induction functions generalizing seen with
  | nil =>
    constructor
    · rintro ⟨⟩
      exact ⟨nofun, fresh_nil, rfl⟩
    · rintro ⟨-, -, rfl⟩
      rfl
  | cons f rest ih =>
    rw [checkFunctions, check_bind_eq_ok_iff, check_bind_eq_ok_iff, FunctionDecl.check_eq_ok_iff,
      checkFresh_eq_ok_iff, ih, List.forall_mem_cons, List.map_cons, fresh_cons,
      List.reverse_cons, List.append_assoc]
    constructor
    · rintro ⟨first, unseen, rest, fresh, equal⟩
      exact ⟨⟨first, rest⟩, ⟨unseen, fresh⟩, equal⟩
    · rintro ⟨⟨first, rest⟩, ⟨unseen, fresh⟩, equal⟩
      exact ⟨first, unseen, rest, fresh, equal⟩

theorem checkClasses_eq_ok_iff {seen : List String} {classes : List ClassDecl} :
    checkClasses seen classes = .ok () ↔
      (∀ c ∈ classes, c.WellNamed) ∧ Fresh seen (classes.map (·.name)) := by
  induction classes generalizing seen with
  | nil => exact iff_of_true rfl ⟨nofun, fresh_nil⟩
  | cons c rest ih =>
    rw [checkClasses, check_bind_eq_ok_iff, check_bind_eq_ok_iff, check_bind_eq_ok_iff,
      checkName_eq_ok_iff, checkFresh_eq_ok_iff, ih, List.forall_mem_cons, List.map_cons,
      fresh_cons, ← ClassDecl.check_eq_ok_iff]
    constructor
    · rintro ⟨identifier, unseen, checked, rest, fresh⟩
      exact ⟨⟨⟨identifier, checked⟩, rest⟩, unseen, fresh⟩
    · rintro ⟨⟨⟨identifier, checked⟩, rest⟩, unseen, fresh⟩
      exact ⟨identifier, unseen, checked, rest, fresh⟩

variable {m : ModuleDecl}

theorem check_eq_ok_iff : m.check = .ok () ↔ m.WellNamed := by
  rw [check, check_bind_eq_ok_iff, checkName_eq_ok_iff, bind_eq_ok_iff]
  simp only [checkFunctions_eq_ok_iff, checkClasses_eq_ok_iff]
  constructor
  · rintro ⟨identifier, _, ⟨functions, first, rfl⟩, classes, second⟩
    exact ⟨identifier, functions, classes, fresh_iff_nodup.mp (fresh_append.mpr ⟨first, second⟩)⟩
  · rintro ⟨identifier, functions, classes, distinct⟩
    obtain ⟨first, second⟩ := fresh_append.mp (fresh_iff_nodup.mpr distinct)
    exact ⟨identifier, _, ⟨functions, first, rfl⟩, classes, second⟩

theorem wellNamed_of_validate (valid : m.validate = .ok ()) : m.WellNamed :=
  check_eq_ok_iff.mp (mapError_eq_ok_iff.mp valid)

end ModuleDecl

end BindingGen
