import BindingGen.Artifact
import Mathlib.Data.List.Forall2

/-!
# What a finished plan holds

Planning stops at the first fault. A plan that comes out holds one entry for each thing that was
declared, in the order of declaration, and each entry was derived from its own declaration: the
lemmas `ofDecl_eq_ok_iff` say this of functions, classes and modules.
-/

namespace BindingGen

/-! ## Steps that may fail -/

section Steps

variable {ε α β : Type}

theorem bind_eq_ok_iff {x : Except ε α} {f : α → Except ε β} {b : β} :
    (x >>= f) = .ok b ↔ ∃ a, x = .ok a ∧ f a = .ok b := by
  cases x with
  | error e =>
    constructor
    · intro finished
      cases finished
    · rintro ⟨a, equal, -⟩
      cases equal
  | ok a =>
    constructor
    · intro finished
      exact ⟨a, rfl, finished⟩
    · rintro ⟨_, equal, finished⟩
      cases equal
      exact finished

theorem map_eq_ok_iff {x : Except ε α} {f : α → β} {b : β} :
    x.map f = .ok b ↔ ∃ a, x = .ok a ∧ b = f a := by
  constructor
  · intro mapped
    cases x with
    | error e => cases mapped
    | ok a =>
      cases mapped
      exact ⟨a, rfl, rfl⟩
  · rintro ⟨a, rfl, rfl⟩
    rfl

/-- A check passes before what follows it. -/
theorem check_bind_eq_ok_iff {x : Except ε Unit} {f : Unit → Except ε β} {b : β} :
    (x >>= f) = .ok b ↔ x = .ok () ∧ f () = .ok b := by
  rw [bind_eq_ok_iff]
  constructor
  · rintro ⟨⟨⟩, passed, finished⟩
    exact ⟨passed, finished⟩
  · rintro ⟨passed, finished⟩
    exact ⟨(), passed, finished⟩

theorem bind_eq_error_iff {x : Except ε α} {f : α → Except ε β} {e : ε} :
    (x >>= f) = .error e ↔ x = .error e ∨ ∃ a, x = .ok a ∧ f a = .error e := by
  cases x with
  | error fault =>
    constructor
    · intro failed
      cases failed
      exact .inl rfl
    · rintro (failed | ⟨a, equal, -⟩)
      · cases failed
        rfl
      · cases equal
  | ok a =>
    constructor
    · intro failed
      exact .inr ⟨a, rfl, failed⟩
    · rintro (equal | ⟨_, equal, failed⟩)
      · cases equal
      · cases equal
        exact failed

theorem mapError_eq_error_iff {ε' : Type} {x : Except ε α} {f : ε → ε'} {e' : ε'} :
    x.mapError f = .error e' ↔ ∃ e, x = .error e ∧ f e = e' := by
  cases x with
  | error fault =>
    constructor
    · intro failed
      cases failed
      exact ⟨fault, rfl, rfl⟩
    · rintro ⟨_, equal, rfl⟩
      cases equal
      rfl
  | ok a =>
    constructor
    · intro failed
      cases failed
    · rintro ⟨_, equal, -⟩
      cases equal

theorem mapError_eq_ok_iff {ε' : Type} {x : Except ε α} {f : ε → ε'} {a : α} :
    x.mapError f = .ok a ↔ x = .ok a := by
  cases x with
  | error e =>
    constructor
    · intro finished
      cases finished
    · intro finished
      cases finished
  | ok b =>
    constructor
    · intro finished
      cases finished
      rfl
    · rintro ⟨⟩
      rfl

/-- Steps along a list that all succeed give one result for each element, in order. -/
theorem mapM_eq_ok_iff {f : α → Except ε β} {as : List α} {bs : List β} :
    as.mapM f = .ok bs ↔ List.Forall₂ (fun a b => f a = .ok b) as bs := by
  induction as generalizing bs with
  | nil =>
    rw [List.mapM_nil, List.forall₂_nil_left_iff]
    constructor
    · intro finished
      cases finished
      rfl
    · rintro rfl
      rfl
  | cons a as ih =>
    rw [List.mapM_cons, bind_eq_ok_iff, List.forall₂_cons_left_iff]
    constructor
    · rintro ⟨b, first, finished⟩
      obtain ⟨rest, others, equal⟩ := bind_eq_ok_iff.mp finished
      cases equal
      exact ⟨b, rest, first, ih.mp others, rfl⟩
    · rintro ⟨b, rest, first, others, rfl⟩
      exact ⟨b, first, bind_eq_ok_iff.mpr ⟨rest, ih.mpr others, rfl⟩⟩

/-- `FailsFirst f as e`: of the steps along a list the first that fails does so with `e`. -/
def FailsFirst (f : α → Except ε β) (as : List α) (e : ε) : Prop :=
  ∃ before a after, as = before ++ a :: after ∧ (∀ b ∈ before, ∃ result, f b = .ok result) ∧
    f a = .error e

theorem failsFirst_nil {f : α → Except ε β} {e : ε} : ¬ FailsFirst f [] e := by
  rintro ⟨before, a, after, split, -⟩
  exact absurd split.symm (List.append_ne_nil_of_right_ne_nil _ (List.cons_ne_nil _ _))

theorem failsFirst_cons {f : α → Except ε β} {a : α} {as : List α} {e : ε} :
    FailsFirst f (a :: as) e ↔ f a = .error e ∨ (∃ b, f a = .ok b) ∧ FailsFirst f as e := by
  constructor
  · rintro ⟨before, x, after, split, succeed, failed⟩
    rcases List.cons_eq_append_iff.mp split with ⟨rfl, same⟩ | ⟨tail, rfl, same⟩
    · cases same
      exact .inl failed
    · obtain ⟨first, succeed⟩ := List.forall_mem_cons.mp succeed
      exact .inr ⟨first, tail, x, after, same, succeed, failed⟩
  · rintro (failed | ⟨first, before, x, after, rfl, succeed, failed⟩)
    · exact ⟨[], a, as, rfl, nofun, failed⟩
    · exact ⟨a :: before, x, after, rfl, List.forall_mem_cons.mpr ⟨first, succeed⟩, failed⟩

/-- Steps along a list that do not all succeed end with the first fault. -/
theorem mapM_eq_error_iff {f : α → Except ε β} {as : List α} {e : ε} :
    as.mapM f = .error e ↔ FailsFirst f as e := by
  induction as with
  | nil =>
    rw [List.mapM_nil]
    exact iff_of_false nofun failsFirst_nil
  | cons a as ih =>
    rw [List.mapM_cons, bind_eq_error_iff, failsFirst_cons, ← ih]
    refine or_congr_right ?_
    constructor
    · rintro ⟨b, first, failed⟩
      rcases bind_eq_error_iff.mp failed with failed | ⟨_, _, impossible⟩
      · exact ⟨⟨b, first⟩, failed⟩
      · cases impossible
    · rintro ⟨⟨b, first⟩, failed⟩
      exact ⟨b, first, bind_eq_error_iff.mpr (.inl failed)⟩

theorem exists_mapM_eq_ok_iff {f : α → Except ε β} {as : List α} :
    (∃ bs, as.mapM f = .ok bs) ↔ ∀ a ∈ as, ∃ b, f a = .ok b := by
  induction as with
  | nil => exact iff_of_true ⟨[], rfl⟩ nofun
  | cons a as ih =>
    rw [List.forall_mem_cons, ← ih, List.mapM_cons]
    constructor
    · rintro ⟨_, finished⟩
      obtain ⟨b, first, finished⟩ := bind_eq_ok_iff.mp finished
      obtain ⟨bs, rest, -⟩ := bind_eq_ok_iff.mp finished
      exact ⟨⟨b, first⟩, bs, rest⟩
    · rintro ⟨⟨b, first⟩, bs, rest⟩
      exact ⟨b :: bs, bind_eq_ok_iff.mpr ⟨b, first, bind_eq_ok_iff.mpr ⟨bs, rest, rfl⟩⟩⟩

theorem failsFirst_append {f : α → Except ε β} {as bs : List α} {e : ε} :
    FailsFirst f (as ++ bs) e ↔
      FailsFirst f as e ∨ (∀ a ∈ as, ∃ b, f a = .ok b) ∧ FailsFirst f bs e := by
  induction as with
  | nil =>
    constructor
    · intro failed
      exact .inr ⟨nofun, failed⟩
    · rintro (impossible | ⟨-, failed⟩)
      · exact absurd impossible failsFirst_nil
      · exact failed
  | cons a as ih =>
    rw [List.cons_append, failsFirst_cons, failsFirst_cons, ih, List.forall_mem_cons, and_or_left,
      or_assoc, and_assoc]

/-- A list of lists may be gone through list by list. -/
theorem failsFirst_flatMap {γ : Type} {f : β → Except ε γ} {g : α → List β} {as : List α} {e : ε} :
    FailsFirst f (as.flatMap g) e ↔ FailsFirst (fun a => (g a).mapM f) as e := by
  induction as with
  | nil => exact iff_of_false failsFirst_nil failsFirst_nil
  | cons a as ih =>
    rw [List.flatMap_cons, failsFirst_append, failsFirst_cons, mapM_eq_error_iff,
      exists_mapM_eq_ok_iff, ih]

end Steps

/-! ## Corresponding lists -/

section Corresponding

variable {α β : Type} {R : α → β → Prop} {as : List α} {bs : List β}

theorem exists_of_mem_right (related : List.Forall₂ R as bs) {b : β} (member : b ∈ bs) :
    ∃ a ∈ as, R a b := by
  induction related with
  | nil => cases member
  | cons first _ ih =>
    rcases List.mem_cons.mp member with rfl | later
    · exact ⟨_, List.mem_cons_self, first⟩
    · obtain ⟨a, inRest, found⟩ := ih later
      exact ⟨a, List.mem_cons_of_mem _ inRest, found⟩

theorem exists_of_mem_left (related : List.Forall₂ R as bs) {a : α} (member : a ∈ as) :
    ∃ b ∈ bs, R a b :=
  exists_of_mem_right related.flip member

theorem map_eq_of_forall₂ {f : β → α} (related : List.Forall₂ R as bs)
    (back : ∀ a b, R a b → f b = a) : bs.map f = as := by
  induction related with
  | nil => rfl
  | cons first _ ih => rw [List.map_cons, ih, back _ _ first]

/-- Lists that correspond have equally many elements of corresponding properties. -/
theorem countP_eq_of_forall₂ {p : α → Bool} {q : β → Bool} (related : List.Forall₂ R as bs)
    (same : ∀ a b, R a b → p a = q b) : as.countP p = bs.countP q := by
  induction related with
  | nil => rfl
  | cons first _ ih => rw [List.countP_cons, List.countP_cons, ih, same _ _ first]

/-- Corresponding elements that lead to the same results do so together. -/
theorem flatMap_eq_of_forall₂ {γ : Type} {f : α → List γ} {g : β → List γ}
    (related : List.Forall₂ R as bs) (each : ∀ a ∈ as, ∀ b, R a b → g b = f a) :
    bs.flatMap g = as.flatMap f := by
  induction related with
  | nil => rfl
  | cons first _ ih =>
    rw [List.flatMap_cons, List.flatMap_cons, each _ List.mem_cons_self _ first,
      ih fun a later => each a (List.mem_cons_of_mem _ later)]

/-- Corresponding elements that lead to the same results, in some order, do so together. -/
theorem flatMap_perm_of_forall₂ {γ : Type} {f : α → List γ} {g : β → List γ}
    (related : List.Forall₂ R as bs)
    (each : ∀ a ∈ as, ∀ b, R a b → (g b).Perm (f a)) : (bs.flatMap g).Perm (as.flatMap f) := by
  induction related with
  | nil => exact .nil
  | cons first _ ih =>
    rw [List.flatMap_cons, List.flatMap_cons]
    exact (each _ List.mem_cons_self _ first).append
      (ih fun a later => each a (List.mem_cons_of_mem _ later))

end Corresponding

/-! ## Functions -/

namespace FunctionPlan

theorem slot_eq_ok_iff {f : FunctionDecl} {p : Parameter} {argument : ArgSlot} :
    slot f p = .ok argument ↔
      argument.param = p ∧ ArgKind.ofParameter f p = .ok argument.kind := by
  rw [slot, bind_eq_ok_iff]
  constructor
  · rintro ⟨kind, resolved, equal⟩
    cases equal
    exact ⟨rfl, resolved⟩
  · rintro ⟨rfl, resolved⟩
    exact ⟨argument.kind, resolved, rfl⟩

/-- The plan of a function holds its shape, a slot for each parameter and its lines of C. -/
theorem ofDecl_eq_ok_iff {f : FunctionDecl} {plan : FunctionPlan} :
    ofDecl f = .ok plan ↔
      plan.decl = f ∧ f.callShape = .ok plan.shape ∧
      List.Forall₂ (fun p argument => slot f p = .ok argument) f.params plan.args ∧
      plan.raw = (f.doc.map rawLines).getD [] := by
  rw [ofDecl, bind_eq_ok_iff]
  constructor
  · rintro ⟨shape, shaped, finished⟩
    obtain ⟨args, resolved, equal⟩ := bind_eq_ok_iff.mp finished
    cases equal
    exact ⟨rfl, shaped, mapM_eq_ok_iff.mp resolved, rfl⟩
  · rintro ⟨rfl, shaped, resolved, lines⟩
    refine ⟨plan.shape, shaped, bind_eq_ok_iff.mpr ⟨plan.args, mapM_eq_ok_iff.mpr resolved, ?_⟩⟩
    rw [← lines]
    rfl

/-- The slots of a plan are the declared parameters in order. -/
theorem args_map_param {f : FunctionDecl} {plan : FunctionPlan} (planned : ofDecl f = .ok plan) :
    plan.args.map (·.param) = f.params := by
  obtain ⟨-, -, slots, -⟩ := ofDecl_eq_ok_iff.mp planned
  exact map_eq_of_forall₂ slots fun _ _ resolved => (slot_eq_ok_iff.mp resolved).1

end FunctionPlan

/-! ## Classes and modules -/

/-- The plan of a class holds the plans of its methods, parted by whether they make instances. -/
theorem ClassPlan.ofDecl_eq_ok_iff {c : ClassDecl} {plan : ClassPlan} :
    ofDecl c = .ok plan ↔
      plan.decl = c ∧ ∃ plans,
        List.Forall₂ (fun f p => FunctionPlan.ofDecl f = .ok p) c.methods plans ∧
        plan.maker = (plans.filter (·.decl.isConstructor)).getLast? ∧
        plan.methods = plans.filter (!·.decl.isConstructor) := by
  rw [ofDecl, bind_eq_ok_iff]
  constructor
  · rintro ⟨plans, planned, equal⟩
    cases equal
    exact ⟨rfl, plans, mapM_eq_ok_iff.mp planned, rfl, rfl⟩
  · rintro ⟨rfl, plans, planned, maker, methods⟩
    refine ⟨plans, mapM_eq_ok_iff.mpr planned, ?_⟩
    rw [← maker, ← methods]
    rfl

/-- The plans of functions are plans of these functions in order. -/
theorem FunctionPlan.map_decl_of_planned {fs : List FunctionDecl} {plans : List FunctionPlan}
    (planned : List.Forall₂ (fun f p => FunctionPlan.ofDecl f = .ok p) fs plans) :
    plans.map (·.decl) = fs :=
  map_eq_of_forall₂ planned fun _ _ found => (ofDecl_eq_ok_iff.mp found).1

theorem ClassPlan.map_decl_of_planned {cs : List ClassDecl} {plans : List ClassPlan}
    (planned : List.Forall₂ (fun c p => ClassPlan.ofDecl c = .ok p) cs plans) :
    plans.map (·.decl) = cs :=
  map_eq_of_forall₂ planned fun _ _ found => (ofDecl_eq_ok_iff.mp found).1

/-- Every one of the plans is that of a declared function. -/
theorem FunctionPlan.planned_of_mem {fs : List FunctionDecl} {plans : List FunctionPlan}
    (planned : List.Forall₂ (fun f p => FunctionPlan.ofDecl f = .ok p) fs plans)
    {plan : FunctionPlan} (member : plan ∈ plans) :
    ofDecl plan.decl = .ok plan ∧ plan.decl ∈ fs := by
  obtain ⟨f, declared, found⟩ := exists_of_mem_right planned member
  obtain ⟨rfl, -⟩ := ofDecl_eq_ok_iff.mp found
  exact ⟨found, declared⟩

theorem ClassPlan.planned_of_mem {cs : List ClassDecl} {plans : List ClassPlan}
    (planned : List.Forall₂ (fun c p => ClassPlan.ofDecl c = .ok p) cs plans)
    {plan : ClassPlan} (member : plan ∈ plans) :
    ofDecl plan.decl = .ok plan ∧ plan.decl ∈ cs := by
  obtain ⟨c, declared, found⟩ := exists_of_mem_right planned member
  obtain ⟨rfl, -⟩ := ofDecl_eq_ok_iff.mp found
  exact ⟨found, declared⟩

namespace ModulePlan

/-- The plan of a module holds the plans of its functions and of its classes. -/
theorem ofDecl_eq_ok_iff {m : ModuleDecl} {plan : ModulePlan} :
    ofDecl m = .ok plan ↔
      plan.decl = m ∧
      List.Forall₂ (fun f p => FunctionPlan.ofDecl f = .ok p) m.functions plan.functions ∧
      List.Forall₂ (fun c p => ClassPlan.ofDecl c = .ok p) m.classes plan.classes := by
  rw [ofDecl, bind_eq_ok_iff]
  constructor
  · rintro ⟨functions, first, finished⟩
    obtain ⟨classes, second, equal⟩ := bind_eq_ok_iff.mp finished
    cases equal
    exact ⟨rfl, mapM_eq_ok_iff.mp first, mapM_eq_ok_iff.mp second⟩
  · rintro ⟨rfl, first, second⟩
    exact ⟨plan.functions, mapM_eq_ok_iff.mpr first,
      bind_eq_ok_iff.mpr ⟨plan.classes, mapM_eq_ok_iff.mpr second, rfl⟩⟩

theorem ofValid_eq_ok_iff {m : ModuleDecl} {plan : ModulePlan} :
    ofValid m = .ok plan ↔ m.adopt.validate = .ok () ∧ ofDecl m.adopt = .ok plan := by
  rw [ofValid, bind_eq_ok_iff]
  constructor
  · rintro ⟨⟨⟩, valid, planned⟩
    exact ⟨valid, planned⟩
  · rintro ⟨valid, planned⟩
    exact ⟨(), valid, planned⟩

end ModulePlan

/-! ## A plan in full -/

/-- The receiver of a method. -/
def receiver : Parameter := ⟨"self", .positional, none, none⟩

/-- A module with a function, and a class with a constructor and a method. -/
def counterModule : ModuleDecl where
  name := "m"
  author := none
  year := none
  functions := [⟨"reset", none, [], false, false, none, none⟩]
  classes := [⟨"Counter",
    [⟨constructorName, none, [receiver, ⟨"start", .positional, none, none⟩], false, false, none,
        none⟩,
      ⟨"step", none, [receiver], false, false, none, none⟩]⟩]

/-- The plan of `counterModule`: the constructor alone counts one argument less. -/
def counterPlan : ModulePlan where
  decl := counterModule.adopt
  functions := [⟨⟨"reset", none, [], false, false, none, none⟩, .fixed 0, [], []⟩]
  classes := [{
    decl := ⟨"Counter",
      [⟨constructorName, some "Counter", [receiver, ⟨"start", .positional, none, none⟩], false,
          false, none, none⟩,
        ⟨"step", some "Counter", [receiver], false, false, none, none⟩]⟩
    maker := some ⟨⟨constructorName, some "Counter",
        [receiver, ⟨"start", .positional, none, none⟩], false, false, none, none⟩, .fixed 1,
      [⟨receiver, .object⟩, ⟨⟨"start", .positional, none, none⟩, .object⟩], []⟩
    methods := [⟨⟨"step", some "Counter", [receiver], false, false, none, none⟩, .fixed 1,
      [⟨receiver, .object⟩], []⟩] }]

example : ModulePlan.ofValid counterModule = .ok counterPlan := rfl

end BindingGen
