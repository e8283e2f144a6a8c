import BindingGen.Proofs.CallShape

/-!
# What a call shape counts

A shape is found by rules that are tried in a fixed order, and a constructor's is then cut by the
receiver. All that comes of it can be told from counts: how many parameters may be passed by
position, how many of these are required, and whether anything else may be passed. `Counts` says
this of each part of a shape, and `Unfit` when there is no shape. Neither looks at the order of the
parameters, or at a rule.

Results:
1. `counts_of_fits`: the convention that a signature calls for counts all of its parameters.
2. `callShape_eq_error_iff`: which fault is reported, and when.
3. `callShape_outcome`: a function has a shape unless it is unfit, the shape has the bounds that the
   counts give, a constructor's is that of the same function without owner less one in each bound,
   and the order of the parameters does not matter.
-/

namespace BindingGen

namespace CallShape

/-- Whether the arguments are passed one by one. -/
def isFixed : CallShape → Bool
  | fixed _ => true
  | _ => false

section Receiver

variable (shape : CallShape)

@[simp] theorem max_withReceiver : shape.withReceiver.max = shape.max.map (· + 1) := by
  cases shape <;> rfl

@[simp] theorem takesKeywords_withReceiver :
    shape.withReceiver.takesKeywords = shape.takesKeywords := by
  cases shape <;> rfl

@[simp] theorem hasArgTable_withReceiver :
    shape.withReceiver.hasArgTable = shape.hasArgTable := by
  cases shape <;> rfl

@[simp] theorem isFixed_withReceiver : shape.withReceiver.isFixed = shape.isFixed := by
  cases shape <;> rfl

/-- A shape can do without the receiver if and only if some argument has to be passed. -/
theorem exists_withReceiver_iff {full : CallShape} (ordered : ∀ most ∈ full.max, full.min ≤ most) :
    (∃ shape : CallShape, full = shape.withReceiver) ↔ full.min ≠ 0 := by
  constructor
  · rintro ⟨shape, rfl⟩
    rw [min_withReceiver]
    exact Nat.succ_ne_zero _
  · intro some
    obtain ⟨least, same⟩ := Nat.exists_eq_succ_of_ne_zero some
    cases full with
    | fixed count => exact ⟨.fixed least, congrArg fixed same⟩
    | between low most =>
      have positive : 0 < most := Nat.lt_of_lt_of_le (Nat.pos_of_ne_zero some) (ordered most rfl)
      obtain ⟨greatest, rfl⟩ := Nat.exists_eq_succ_of_ne_zero (Nat.ne_of_gt positive)
      exact ⟨.between least greatest, congrArg (between · _) same⟩
    | atLeast low => exact ⟨.atLeast least, congrArg atLeast same⟩
    | keyword low => exact ⟨.keyword least, congrArg keyword same⟩

end Receiver

end CallShape

namespace FunctionDecl

/-- Whether anything may be passed by name. -/
def takesNamed (f : FunctionDecl) : Bool := f.varkw || f.hasKeywordOnly

/-- The number of parameters that no caller passes: the receiver of a constructor. -/
def unpassed (f : FunctionDecl) : Nat := if f.isConstructor then 1 else 0

/-- Extra arguments of both kinds are gathered, and some parameter of either kind has a default. -/
def MixesDefaults (f : FunctionDecl) : Prop :=
  f.varargs = true ∧ f.varkw = true ∧ f.hasDefaults = true

/-- No convention fits: defaults are mixed with extra arguments of both kinds, or a constructor has
no required parameter for its receiver. -/
def Unfit (f : FunctionDecl) : Prop :=
  f.MixesDefaults ∨ f.isConstructor = true ∧ f.required = []

/-- Why a function is unfit. Mixed defaults are reported even where the receiver is missing too. -/
inductive UnfitFor (f : FunctionDecl) : ShapeFault → Prop
  | defaults : f.MixesDefaults → UnfitFor f .extrasWithDefaults
  | receiver : ¬ f.MixesDefaults → f.isConstructor = true → f.required = [] →
      UnfitFor f .noReceiver

theorem unfit_iff_exists {f : FunctionDecl} : f.Unfit ↔ ∃ reason, f.UnfitFor reason := by
  constructor
  · intro unfit
    by_cases mixes : f.MixesDefaults
    · exact ⟨_, .defaults mixes⟩
    · obtain ⟨makes, none⟩ := unfit.resolve_left mixes
      exact ⟨_, .receiver mixes makes none⟩
  · rintro ⟨_, ⟨mixes⟩ | ⟨-, makes, none⟩⟩
    · exact .inl mixes
    · exact .inr ⟨makes, none⟩

/-- `Counts f unpassed shape`: the shape counts the parameters of the function but for so many that
no caller passes. -/
structure Counts (f : FunctionDecl) (unpassed : Nat) (shape : CallShape) : Prop where
  min : shape.min + unpassed = f.required.length
  max : shape.max.map (· + unpassed) =
    if f.varargs || f.takesNamed then none else some f.positional.length
  keywords : shape.takesKeywords = f.takesNamed
  fixed_iff : shape.isFixed = true ↔
    f.varargs = false ∧ f.takesNamed = false ∧ f.positional.length ≤ 3 ∧ f.defaulted = []
  table_iff : shape.hasArgTable = true ↔
    f.takesNamed = true ∨ f.varargs = false ∧ (3 < f.positional.length ∨ f.defaulted ≠ [])

namespace Counts

variable {f : FunctionDecl} {unpassed count : Nat} {shape : CallShape}

/-- A bound above leaves room for what has to be passed. -/
theorem min_le_max (counts : Counts f unpassed shape) : ∀ most ∈ shape.max, shape.min ≤ most := by
  intro most bounded
  have least := counts.min
  have top := counts.max
  have split := f.length_required_add_length_defaulted
  rw [Option.mem_def.mp bounded, Option.map_some] at top
  split at top
  · cases top
  · have same := Option.some.inj top
    omega

/-- No more than three arguments are passed one by one. -/
theorem le_three (counts : Counts f unpassed (.fixed count)) : count ≤ 3 := by
  obtain ⟨-, -, few, -⟩ := counts.fixed_iff.mp rfl
  have least := counts.min
  have split := f.length_required_add_length_defaulted
  rw [CallShape.min] at least
  omega

/-- A shape that counts every parameter can do without the receiver if and only if one of them is
required. -/
theorem exists_withReceiver_iff (counts : Counts f 0 shape) :
    (∃ rest : CallShape, shape = rest.withReceiver) ↔ f.required ≠ [] := by
  rw [CallShape.exists_withReceiver_iff counts.min_le_max, ← List.length_pos_iff, ← counts.min,
    Nat.pos_iff_ne_zero]
  rfl

/-- What counts every parameter counts all but the receiver once this is dropped. -/
theorem drop (counts : Counts f 0 shape.withReceiver) : Counts f 1 shape := by
  obtain ⟨min, max, keywords, fixed, table⟩ := counts
  rw [CallShape.min_withReceiver] at min
  rw [CallShape.max_withReceiver, Option.map_map] at max
  rw [CallShape.takesKeywords_withReceiver] at keywords
  rw [CallShape.isFixed_withReceiver] at fixed
  rw [CallShape.hasArgTable_withReceiver] at table
  exact ⟨min, max, keywords, fixed, table⟩

end Counts

variable {f : FunctionDecl} {full shape : CallShape}

/-! ## The shape of a signature -/

theorem counts_of_fits (fits : Fits f full) : Counts f 0 full := by
  cases fits with
  | keyword named =>
    have named : f.takesNamed = true := named
    constructor
    · rfl
    · rw [named, Bool.or_true]
      rfl
    · exact named.symm
    · exact iff_of_false nofun fun fixed => nomatch fixed.2.1.symm.trans named
    · exact iff_of_true rfl (.inl named)
  | atLeast plain gathers =>
    have plain : f.takesNamed = false := plain
    constructor
    · rfl
    · rw [gathers, Bool.true_or]
      rfl
    · exact plain.symm
    · exact iff_of_false nofun fun fixed => nomatch fixed.1.symm.trans gathers
    · refine iff_of_false nofun ?_
      rintro (named | ⟨single, -⟩)
      · cases named.symm.trans plain
      · cases single.symm.trans gathers
  | fixed plain single none few =>
    have plain : f.takesNamed = false := plain
    have split := f.length_required_add_length_defaulted
    rw [none, List.length_nil, Nat.add_zero] at split
    constructor
    · exact split.symm
    · rw [plain, single]
      rfl
    · exact plain.symm
    · exact iff_of_true rfl ⟨single, plain, few, none⟩
    · refine iff_of_false nofun ?_
      rintro (named | ⟨-, many | some⟩)
      · cases named.symm.trans plain
      · exact Nat.not_lt_of_le few many
      · exact some none
  | between plain single wide =>
    have plain : f.takesNamed = false := plain
    constructor
    · rfl
    · rw [plain, single]
      rfl
    · exact plain.symm
    · refine iff_of_false nofun ?_
      rintro ⟨-, -, few, none⟩
      rcases wide with some | many
      · exact some none
      · exact Nat.not_lt_of_le few many
    · exact iff_of_true rfl (.inr ⟨single, wide.symm⟩)

/-- Some convention fits every signature; what is turned down is turned down for its defaults. -/
theorem exists_fits (f : FunctionDecl) : ∃ full, Fits f full := by
  cases named : (f.varkw || f.hasKeywordOnly) with
  | true => exact ⟨_, .keyword named⟩
  | false =>
    cases gathers : f.varargs with
    | true => exact ⟨_, .atLeast named gathers⟩
    | false =>
      by_cases none : f.defaulted = []
      · rcases Nat.lt_or_ge CallShape.mostFixed f.positional.length with many | few
        · exact ⟨_, .between named gathers (.inr many)⟩
        · exact ⟨_, .fixed named gathers none few⟩
      · exact ⟨_, .between named gathers (.inl none)⟩

theorem mixesDefaults_iff : f.MixesDefaults ↔ (f.varargs && f.varkw && f.hasDefaults) = true := by
  rw [MixesDefaults, Bool.and_eq_true, Bool.and_eq_true, and_assoc]

theorem fullShape_of_mixesDefaults (mixes : f.MixesDefaults) :
    f.fullShape = .error .extrasWithDefaults := by
  rw [fullShape]
  exact if_pos (mixesDefaults_iff.mp mixes)

theorem fullShape_of_fits (clear : ¬ f.MixesDefaults) (fits : Fits f full) :
    f.fullShape = .ok full := by
  rw [mixesDefaults_iff] at clear
  rw [fullShape, if_neg clear]
  cases fits with
  | keyword named => rw [if_pos named]
  | atLeast plain gathers => rw [plain, gathers, if_neg Bool.false_ne_true, if_pos rfl]
  | fixed plain single none few =>
    rw [plain, single, if_neg Bool.false_ne_true, if_neg Bool.false_ne_true, none, if_pos]
    simpa using few
  | between plain single wide =>
    rw [plain, single, if_neg Bool.false_ne_true, if_neg Bool.false_ne_true, if_neg]
    rintro narrow
    obtain ⟨none, few⟩ := Bool.and_eq_true_iff.mp narrow
    rcases wide with some | many
    · exact some (List.isEmpty_iff.mp none)
    · exact Nat.not_lt_of_le (of_decide_eq_true few) many

/-- A signature has a shape unless defaults are mixed with extra arguments of both kinds. -/
theorem fullShape_cases (f : FunctionDecl) :
    (f.MixesDefaults ∧ f.fullShape = .error .extrasWithDefaults) ∨
      (¬ f.MixesDefaults ∧ ∃ full, f.fullShape = .ok full ∧ Counts f 0 full) := by
  by_cases mixes : f.MixesDefaults
  · exact .inl ⟨mixes, fullShape_of_mixesDefaults mixes⟩
  · obtain ⟨full, fits⟩ := f.exists_fits
    exact .inr ⟨mixes, full, fullShape_of_fits mixes fits, counts_of_fits fits⟩

/-! ## The shape of a function -/

/-- What is passed to a constructor is what is passed to the same function without owner, but for
the receiver. -/
theorem callShape_of_isConstructor (makes : f.isConstructor = true) :
    f.callShape = .ok shape ↔
      ({ f with owner := none } : FunctionDecl).callShape = .ok shape.withReceiver := by
  have free : ({ f with owner := none } : FunctionDecl).isConstructor = false := Bool.and_false _
  rw [callShape_eq_ok_iff, callShape_eq_ok_iff, makes, free]
  -- The signature is the same with and without the owner.
  change (∃ full, f.fullShape = .ok full ∧ _) ↔ ∃ full, f.fullShape = .ok full ∧ _
  refine exists_congr fun full => and_congr_right fun _ => ?_
  rw [if_pos rfl, if_neg Bool.false_ne_true, CallShape.withoutReceiver_eq_some_iff]

theorem callShape_of_fullShape_error {reason : ShapeFault} (failed : f.fullShape = .error reason) :
    f.callShape = .error (.unsupportedShape f.qualifiedName reason) := by
  rw [callShape, failed]
  rfl

/-- A shape that cannot do without the receiver is turned down for that. -/
theorem callShape_of_withoutReceiver_eq_none (shaped : f.fullShape = .ok full)
    (makes : f.isConstructor = true) (stuck : full.withoutReceiver = none) :
    f.callShape = .error (.unsupportedShape f.qualifiedName .noReceiver) := by
  rw [callShape, mapError_eq_error_iff]
  refine ⟨.noReceiver, bind_eq_error_iff.mpr (.inr ⟨full, shaped, ?_⟩), rfl⟩
  rw [makes, if_pos rfl, stuck]
  rfl

/-- Either the function is unfit and its fault says for what, or its shape counts what is passed. -/
theorem callShape_cases (f : FunctionDecl) :
    (∃ reason, f.UnfitFor reason ∧
      f.callShape = .error (.unsupportedShape f.qualifiedName reason)) ∨
    (¬ f.Unfit ∧ ∃ shape, f.callShape = .ok shape ∧ Counts f f.unpassed shape) := by
  rcases f.fullShape_cases with ⟨mixes, failed⟩ | ⟨clear, full, shaped, counts⟩
  · exact .inl ⟨_, .defaults mixes, callShape_of_fullShape_error failed⟩
  · cases makes : f.isConstructor with
    | false =>
      have fit : ¬ f.Unfit := by
        rintro (mixes | ⟨impossible, -⟩)
        · exact clear mixes
        · cases makes.symm.trans impossible
      have callable : f.callShape = .ok full := by
        rw [callShape_eq_ok_iff, makes]
        exact ⟨full, shaped, rfl⟩
      have all : f.unpassed = 0 := by
        rw [unpassed, makes]
        rfl
      exact .inr ⟨fit, full, callable, all ▸ counts⟩
    | true =>
      have butOne : f.unpassed = 1 := by
        rw [unpassed, makes]
        rfl
      cases dropped : full.withoutReceiver with
      | none =>
        have missing : f.required = [] := by
          by_contra some
          obtain ⟨rest, same⟩ := counts.exists_withReceiver_iff.mpr some
          cases dropped.symm.trans (CallShape.withoutReceiver_eq_some_iff.mpr same)
        exact .inl ⟨_, .receiver clear makes missing,
          callShape_of_withoutReceiver_eq_none shaped makes dropped⟩
      | some shape =>
        have same := CallShape.withoutReceiver_eq_some_iff.mp dropped
        have fit : ¬ f.Unfit := by
          rintro (mixes | ⟨-, missing⟩)
          · exact clear mixes
          · exact counts.exists_withReceiver_iff.mp ⟨shape, same⟩ missing
        have callable : f.callShape = .ok shape := by
          rw [callShape_eq_ok_iff, makes]
          exact ⟨full, shaped, dropped⟩
        subst same
        exact .inr ⟨fit, shape, callable, butOne ▸ counts.drop⟩

/-- A function without shape is reported by its qualified name, with what it is unfit for. -/
theorem callShape_eq_error_iff {fault : Fault} :
    f.callShape = .error fault ↔
      ∃ reason, f.UnfitFor reason ∧ fault = .unsupportedShape f.qualifiedName reason := by
  rcases f.callShape_cases with ⟨reason, unfit, failed⟩ | ⟨fit, shape, shaped, -⟩
  · rw [failed, Except.error.injEq]
    constructor
    · rintro rfl
      exact ⟨reason, unfit, rfl⟩
    · rintro ⟨other, alsoUnfit, rfl⟩
      -- A function is not unfit for two reasons.
      have same : reason = other := by
        cases unfit with
        | defaults mixes => cases alsoUnfit with
          | defaults => rfl
          | receiver clear => exact absurd mixes clear
        | receiver clear => cases alsoUnfit with
          | defaults mixes => exact absurd mixes clear
          | receiver => rfl
      rw [same]
  · refine iff_of_false (fun failed => nomatch shaped.symm.trans failed) ?_
    rintro ⟨reason, unfit, -⟩
    exact fit (unfit_iff_exists.mpr ⟨reason, unfit⟩)

theorem exists_callShape_eq_error_iff :
    (∃ fault, f.callShape = .error fault) ↔ f.Unfit := by
  rw [unfit_iff_exists]
  constructor
  · rintro ⟨fault, failed⟩
    obtain ⟨reason, unfit, -⟩ := callShape_eq_error_iff.mp failed
    exact ⟨reason, unfit⟩
  · rintro ⟨reason, unfit⟩
    exact ⟨_, callShape_eq_error_iff.mpr ⟨reason, unfit, rfl⟩⟩

/-- A shape that is found counts what is passed. -/
theorem counts_of_callShape (shaped : f.callShape = .ok shape) : Counts f f.unpassed shape := by
  rcases f.callShape_cases with ⟨_, -, failed⟩ | ⟨-, other, found, counts⟩
  · cases failed.symm.trans shaped
  · cases found.symm.trans shaped
    exact counts

theorem exists_callShape_eq_ok_iff : (∃ shape, f.callShape = .ok shape) ↔ ¬ f.Unfit := by
  constructor
  · rintro ⟨shape, shaped⟩ unfit
    obtain ⟨fault, failed⟩ := exists_callShape_eq_error_iff.mpr unfit
    cases shaped.symm.trans failed
  · intro fit
    rcases f.callShape_cases with ⟨reason, unfit, -⟩ | ⟨-, shape, shaped, -⟩
    · exact absurd (unfit_iff_exists.mpr ⟨reason, unfit⟩) fit
    · exact ⟨shape, shaped⟩

/-! ## The order of the parameters -/

/-- Only the number of parameters of each kind matters. -/
theorem callShape_of_perm {ps : List Parameter} (perm : f.params.Perm ps) :
    ({ f with params := ps } : FunctionDecl).callShape = f.callShape := by
  have positional := perm.filter (!·.isKeywordOnly)
  have count := positional.length_eq
  have required := (positional.filter (!·.hasDefault)).length_eq
  have none := (positional.filter (·.hasDefault)).isEmpty_eq
  have named := perm.any_eq (f := (·.isKeywordOnly))
  have defaults := perm.any_eq (f := (·.hasDefault))
  have same : ({ f with params := ps } : FunctionDecl).fullShape = f.fullShape := by
    simp only [fullShape, FunctionDecl.positional, FunctionDecl.required, defaulted,
      hasKeywordOnly, hasDefaults, count, required, none, named, defaults]
    rfl
  rw [callShape, callShape, same]
  rfl

/-- Which functions have a shape, what its bounds are, and what they do not depend on. The bounds
of a constructor are told twice: by the counts, and by those of the same function without owner. -/
theorem callShape_outcome (f : FunctionDecl) :
    ((∃ fault, f.callShape = .error fault) ↔ f.Unfit) ∧
    (∀ fault, f.callShape = .error fault ↔
      ∃ reason, f.UnfitFor reason ∧ fault = .unsupportedShape f.qualifiedName reason) ∧
    ((∃ shape, f.callShape = .ok shape) ↔ ¬ f.Unfit) ∧
    (∀ shape, f.callShape = .ok shape →
      Counts f f.unpassed shape ∧ (∀ most ∈ shape.max, shape.min ≤ most) ∧
        ∀ count, shape = .fixed count → count ≤ 3) ∧
    (f.isConstructor = true → ∀ shape, f.callShape = .ok shape ↔
      ({ f with owner := none } : FunctionDecl).callShape = .ok shape.withReceiver) ∧
    ∀ ps : List Parameter, f.params.Perm ps →
      ({ f with params := ps } : FunctionDecl).callShape = f.callShape := by
  refine ⟨exists_callShape_eq_error_iff, fun _ => callShape_eq_error_iff,
    exists_callShape_eq_ok_iff, fun shape shaped => ?_, fun makes _ =>
    callShape_of_isConstructor makes, fun _ => callShape_of_perm⟩
  have counts := counts_of_callShape shaped
  refine ⟨counts, counts.min_le_max, ?_⟩
  rintro count rfl
  exact counts.le_three

end FunctionDecl

end BindingGen
