import BindingGen.Proofs.Plan

/-!
# Which convention a signature calls for

`Fits` lists the conventions with the conditions under which a signature gets each of them. The
shape of a function is the one that fits its signature, and for a constructor that shape without
the receiver (`callShape_eq_ok_iff`), which is never the same one (`withoutReceiver_ne`).
-/

namespace BindingGen

namespace CallShape

/-- The shape with one argument more in every bound. -/
def withReceiver : CallShape → CallShape
  | fixed count => fixed (count + 1)
  | between least most => between (least + 1) (most + 1)
  | atLeast least => atLeast (least + 1)
  | keyword least => keyword (least + 1)

theorem pred?_eq_some_iff {n k : Nat} : pred? n = some k ↔ n = k + 1 := by
  cases n with
  | zero => exact iff_of_false nofun nofun
  | succ n => rw [pred?, Option.some.injEq, Nat.add_right_cancel_iff]

/-- A shape without the receiver is the one that the receiver is to be added to. -/
theorem withoutReceiver_eq_some_iff {full shape : CallShape} :
    full.withoutReceiver = some shape ↔ full = shape.withReceiver := by
  cases full with
  | fixed count =>
    rw [withoutReceiver, Option.map_eq_some_iff]
    simp only [pred?_eq_some_iff]
    cases shape <;> simp [withReceiver]
  | between least most =>
    simp only [withoutReceiver, Option.bind_eq_bind, Option.bind_eq_some_iff, pred?_eq_some_iff,
      Option.pure_def, Option.some.injEq]
    cases shape <;> simp [withReceiver]
  | atLeast least =>
    rw [withoutReceiver, Option.map_eq_some_iff]
    simp only [pred?_eq_some_iff]
    cases shape <;> simp [withReceiver]
  | keyword least =>
    rw [withoutReceiver, Option.map_eq_some_iff]
    simp only [pred?_eq_some_iff]
    cases shape <;> simp [withReceiver]

/-- With the receiver the least number of arguments is greater by exactly one. -/
@[simp] theorem min_withReceiver (shape : CallShape) :
    shape.withReceiver.min = shape.min + 1 := by
  cases shape <;> rfl

theorem withoutReceiver_ne {full shape : CallShape} (dropped : full.withoutReceiver = some shape) :
    full ≠ shape := by
  rintro rfl
  have smaller := congrArg min (withoutReceiver_eq_some_iff.mp dropped)
  rw [min_withReceiver] at smaller
  omega

end CallShape

namespace FunctionDecl

/-- `Fits f shape`: the signature of `f`, with every parameter counted, calls for this
convention. -/
inductive Fits (f : FunctionDecl) : CallShape → Prop
  | keyword : (f.varkw || f.hasKeywordOnly) = true → Fits f (.keyword f.required.length)
  | atLeast : (f.varkw || f.hasKeywordOnly) = false → f.varargs = true →
      Fits f (.atLeast f.required.length)
  | fixed : (f.varkw || f.hasKeywordOnly) = false → f.varargs = false →
      f.defaulted = [] → f.positional.length ≤ CallShape.mostFixed →
      Fits f (.fixed f.positional.length)
  | between : (f.varkw || f.hasKeywordOnly) = false → f.varargs = false →
      (f.defaulted ≠ [] ∨ CallShape.mostFixed < f.positional.length) →
      Fits f (.between f.required.length f.positional.length)

theorem fits_of_fullShape {f : FunctionDecl} {shape : CallShape}
    (shaped : f.fullShape = .ok shape) : Fits f shape := by
  unfold fullShape at shaped
  dsimp only at shaped
  split at shaped
  · cases shaped
  · -- The conventions are tried in a fixed order, and each case rules out the earlier ones.
    cases named : (f.varkw || f.hasKeywordOnly) with
    | true =>
      rw [named, if_pos rfl] at shaped
      cases shaped
      exact .keyword named
    | false =>
      rw [named, if_neg Bool.false_ne_true] at shaped
      cases gathers : f.varargs with
      | true =>
        rw [gathers, if_pos rfl] at shaped
        cases shaped
        exact .atLeast named gathers
      | false =>
        rw [gathers, if_neg Bool.false_ne_true] at shaped
        split at shaped
        · next few =>
          cases shaped
          obtain ⟨none, bound⟩ := Bool.and_eq_true_iff.mp few
          exact .fixed named gathers (List.isEmpty_iff.mp none) (of_decide_eq_true bound)
        · next many =>
          cases shaped
          refine .between named gathers ?_
          by_cases none : f.defaulted = []
          · refine .inr (Nat.lt_of_not_le fun few => many ?_)
            simp [none, few]
          · exact .inl none

/-- The shape of a function is the full one, less the receiver where it is a constructor. -/
theorem callShape_eq_ok_iff {f : FunctionDecl} {shape : CallShape} :
    f.callShape = .ok shape ↔
      ∃ full, f.fullShape = .ok full ∧
        if f.isConstructor then full.withoutReceiver = some shape else full = shape := by
  rw [callShape, mapError_eq_ok_iff, bind_eq_ok_iff]
  refine exists_congr fun full => and_congr_right fun _ => ?_
  cases f.isConstructor with
  | false =>
    rw [if_neg Bool.false_ne_true, if_neg Bool.false_ne_true]
    constructor
    · intro finished
      cases finished
      rfl
    · rintro rfl
      rfl
  | true =>
    rw [if_pos rfl, if_pos rfl]
    cases full.withoutReceiver with
    | none =>
      constructor
      · intro finished
        cases finished
      · intro found
        cases found
    | some other =>
      constructor
      · intro finished
        cases finished
        rfl
      · rintro ⟨⟩
        rfl

/-- Without parameters that are passed by name only, all parameters are positional. -/
theorem positional_eq_params {f : FunctionDecl} (plain : f.hasKeywordOnly = false) :
    f.positional = f.params := by
  rw [positional, List.filter_eq_self]
  intro p member
  rw [hasKeywordOnly, List.any_eq_false] at plain
  simpa using plain p member

end FunctionDecl

end BindingGen
