import BindingGen.Proofs.CallShape
import BindingGen.Proofs.Listing

/-!
# A unit keeps to the convention it is registered by

The runtime calls an entry point by the convention that its registration names. Three separate
tests decide what the unit of a function looks like: the shape picks the parameters of the entry
point, the shape again picks between a table and a bare enumeration, and an empty list of slots
leaves either out. `Agrees` says what their outcome has to be for each convention.

Results:
1. `rows_of_plan`: the rows of a planned function are those of its parameters, in order.
2. `takes_of_plan`: parameters and arguments fit the full shape of the signature.
3. `unit_agrees`: the unit of any function that is not a constructor agrees with its registration.
-/

namespace BindingGen

/-! ## Views of a fragment -/

namespace Fragment

/-- The entry point that a fragment opens. -/
def entry? : Fragment → Option (String × EntryParams)
  | entryOpen name params => some (name, params)
  | _ => none

/-- The object, the entry point and the convention that a fragment registers. -/
def registration? : Fragment → Option (String × String × CallShape)
  | functionObject object entry shape => some (object, entry, shape)
  | _ => none

/-- Whether a fragment opens or registers an entry point. -/
def isBinding : Fragment → Bool
  | entryOpen _ _ => true
  | functionObject _ _ _ => true
  | _ => false

/-- Whether a fragment numbers, describes or checks arguments. -/
def isArgument : Fragment → Bool
  | slotEnum _ => true
  | argTableOpen => true
  | argRow _ => true
  | argTableClose => true
  | argParse _ => true
  | _ => false

theorem entry?_of_isArgument {fragment : Fragment} (argument : fragment.isArgument = true) :
    fragment.entry? = none := by
  cases fragment with
  | entryOpen => cases argument
  | _ => rfl

theorem registration?_of_isArgument {fragment : Fragment}
    (argument : fragment.isArgument = true) : fragment.registration? = none := by
  cases fragment with
  | functionObject => cases argument
  | _ => rfl

end Fragment

/-! ## What a convention asks for -/

/-- `RowOf f p row`: the row of an argument table says of `p` what `f` declares. -/
structure RowOf (f : FunctionDecl) (p : Parameter) (row : ArgRow) : Prop where
  name : row.name = p.name
  required : row.required = !p.hasDefault
  keywordOnly : row.keywordOnly = p.isKeywordOnly
  kind : ArgKind.ofParameter f p = .ok row.kind
  initializer : row.initializer = p.default.map fun value => (value.initializer row.kind).text

/-- `HasTable f arguments rows keywords`: the arguments of `f` are enumerated, described by these
rows and then checked; slots and rows stand in the order of the parameters. -/
structure HasTable (f : FunctionDecl) (arguments : List Fragment) (rows : List ArgRow)
    (keywords : Bool) : Prop where
  text : arguments =
    [.slotEnum (f.params.map fun p => "ARG_" ++ p.name), .argTableOpen] ++ rows.map .argRow ++
      [.argTableClose, .argParse keywords]
  rows : List.Forall₂ (RowOf f) f.params rows

/-- `Takes f params arguments shape`: an entry point with these parameters, whose body handles its
arguments so, takes what a caller by this convention passes. -/
def Takes (f : FunctionDecl) (params : EntryParams) (arguments : List Fragment) :
    CallShape → Prop
  | .fixed count =>
    params = .fixed (f.params.map fun p => p.name ++ "_in") ∧ f.params.length = count ∧
      arguments = []
  | .between least most =>
    params = .parsedArray ∧
      ∃ rows, HasTable f arguments rows false ∧ rows.length = most ∧
        rows.countP (·.required) = least ∧ ∀ row ∈ rows, row.keywordOnly = false
  | .atLeast _ =>
    params = .array ∧
      arguments =
        if f.params = [] then [] else [.slotEnum (f.params.map fun p => "ARG_" ++ p.name)]
  | .keyword least =>
    params = .keywordMap ∧
      if f.params = [] then arguments = [] ∧ least = 0
      else ∃ rows, HasTable f arguments rows true ∧ rows.length = f.params.length ∧
        rows.countP (fun row => row.required && !row.keywordOnly) = least

/-- `Agrees f unit`: a unit opens one entry point and registers that one by the shape of `f`, and
the entry point takes what the convention of this shape passes. -/
def Agrees (f : FunctionDecl) (unit : List Fragment) : Prop :=
  ∃ entry params object shape,
    f.callShape = .ok shape ∧
      unit.filterMap Fragment.entry? = [(entry, params)] ∧
      unit.filterMap Fragment.registration? = [(object, entry, shape)] ∧
      .entryOpen entry params :: unit.filter Fragment.isArgument <:+: unit ∧
      Takes f params (unit.filter Fragment.isArgument) shape

/-! ## Counting parameters -/

namespace FunctionDecl

/-- The required parameters are those without a default that may be passed by position. -/
theorem length_required (f : FunctionDecl) :
    f.required.length = f.params.countP fun p => !p.hasDefault && !p.isKeywordOnly := by
  rw [required, positional, List.filter_filter, ← List.countP_eq_length_filter]

theorem isKeywordOnly_eq_false {f : FunctionDecl} (plain : f.hasKeywordOnly = false)
    {p : Parameter} (member : p ∈ f.params) : p.isKeywordOnly = false := by
  rw [hasKeywordOnly, List.any_eq_false] at plain
  exact Bool.eq_false_iff.mpr (plain p member)

/-- A signature that calls for a bounded number of arguments has some parameter. -/
theorem params_ne_nil_of_between {f : FunctionDecl} (plain : f.hasKeywordOnly = false)
    (reason : f.defaulted ≠ [] ∨ CallShape.mostFixed < f.positional.length) : f.params ≠ [] := by
  intro none
  rw [defaulted, positional_eq_params plain, none] at reason
  rcases reason with some | many
  · exact some rfl
  · exact Nat.not_lt_zero _ many

end FunctionDecl

/-! ## Planned functions -/

namespace FunctionPlan

variable {f : FunctionDecl} {plan : FunctionPlan}

/-- The rows of a planned function say of its parameters, in order, what it declares. -/
theorem rows_of_plan (planned : ofDecl f = .ok plan) :
    List.Forall₂ (RowOf f) f.params (plan.args.map (·.row)) := by
  obtain ⟨-, -, slots, -⟩ := ofDecl_eq_ok_iff.mp planned
  rw [List.forall₂_map_right_iff]
  refine slots.imp fun p argument resolved => ?_
  obtain ⟨rfl, kind⟩ := slot_eq_ok_iff.mp resolved
  exact ⟨rfl, rfl, rfl, kind, rfl⟩

theorem isEmpty_args (planned : ofDecl f = .ok plan) : plan.args.isEmpty = f.params.isEmpty := by
  rw [← args_map_param planned, List.isEmpty_map]

theorem slotEnum_of_plan (planned : ofDecl f = .ok plan) :
    plan.slotEnum =
      if f.params = [] then [] else [.slotEnum (f.params.map fun p => "ARG_" ++ p.name)] := by
  have slots : plan.args.map (fun slot => NameScheme.argSlot slot.param.name) =
      f.params.map fun p => "ARG_" ++ p.name := by
    rw [← args_map_param planned, List.map_map]
    rfl
  rw [slotEnum, isEmpty_args planned, slots]
  simp only [List.isEmpty_iff]

/-- With some parameter there is a table, and it describes all of them. -/
theorem hasTable_of_plan (planned : ofDecl f = .ok plan) (nonempty : f.params ≠ []) :
    HasTable f plan.argTable.fragments (plan.args.map (·.row)) plan.shape.takesKeywords := by
  refine ⟨?_, rows_of_plan planned⟩
  have some : plan.args.isEmpty = false := by
    rw [isEmpty_args planned]
    exact List.isEmpty_eq_false_iff.mpr nonempty
  rw [fragments_argTable, some, if_neg Bool.false_ne_true, tableFragments,
    slotEnum_of_plan planned, if_neg nonempty, List.map_map]
  rfl

theorem argTable_of_no_params (planned : ofDecl f = .ok plan) (none : f.params = []) :
    plan.argTable.fragments = [] := by
  rw [fragments_argTable, isEmpty_args planned, none, List.isEmpty_nil, if_pos rfl]

/-- The entry point and the arguments of a planned function fit the full shape of its signature.
For a function that is not a constructor this is the shape it is registered by. -/
theorem takes_of_plan (planned : ofDecl f = .ok plan) (fits : f.Fits plan.shape) :
    Takes f plan.entryParams plan.argumentFragments plan.shape := by
  have rows := rows_of_plan planned
  -- Each case of `fits` names the shape, and with it the branches that the emitter takes.
  generalize shaped : plan.shape = shape at fits ⊢
  have table := hasTable_of_plan planned
  rw [shaped] at table
  cases fits with
  | keyword named =>
    have arguments : plan.argumentFragments = plan.argTable.fragments := by
      rw [argumentFragments, argPart, shaped]
    refine ⟨by rw [entryParams, shaped], ?_⟩
    split
    · next none =>
      refine ⟨arguments.trans (argTable_of_no_params planned none), ?_⟩
      rw [FunctionDecl.length_required, none, List.countP_nil]
    · next some =>
      refine ⟨_, arguments ▸ table some, rows.length_eq.symm, ?_⟩
      rw [FunctionDecl.length_required]
      refine (countP_eq_of_forall₂ rows fun p row described => ?_).symm
      rw [described.required, described.keywordOnly]
  | atLeast _ _ =>
    refine ⟨by rw [entryParams, shaped], ?_⟩
    rw [argumentFragments, argPart, shaped]
    exact (Listing.fragments_ofFragments _).trans (slotEnum_of_plan planned)
  | fixed named _ _ _ =>
    have plain : f.hasKeywordOnly = false := (Bool.or_eq_false_iff.mp named).2
    refine ⟨?_, by rw [FunctionDecl.positional_eq_params plain], ?_⟩
    · rw [entryParams, shaped, ← args_map_param planned, List.map_map]
      rfl
    · rw [argumentFragments, argPart, shaped]
      rfl
  | between named _ reason =>
    have plain : f.hasKeywordOnly = false := (Bool.or_eq_false_iff.mp named).2
    have some := FunctionDecl.params_ne_nil_of_between plain reason
    have arguments : plan.argumentFragments = plan.argTable.fragments := by
      rw [argumentFragments, argPart, shaped]
    refine ⟨by rw [entryParams, shaped], _, arguments ▸ table some, ?_, ?_, ?_⟩
    · rw [FunctionDecl.positional_eq_params plain, rows.length_eq]
    · -- Nothing is passed by name only, so the required rows are all those without a default.
      rw [FunctionDecl.required, FunctionDecl.positional_eq_params plain,
        ← List.countP_eq_length_filter]
      exact (countP_eq_of_forall₂ rows fun p row described => described.required.symm).symm
    · intro row member
      obtain ⟨argument, inArgs, rfl⟩ := List.mem_map.mp member
      refine FunctionDecl.isKeywordOnly_eq_false plain ?_
      rw [← args_map_param planned]
      exact List.mem_map_of_mem inArgs

/-! ## The unit around the arguments -/

theorem isArgument_of_mem_argumentFragments {fragment : Fragment}
    (member : fragment ∈ plan.argumentFragments) : fragment.isArgument = true := by
  rcases mem_argumentFragments member with rfl | rfl | ⟨_, _, rfl⟩ | rfl | ⟨_, rfl⟩
  all_goals rfl

/-- The statements of a function neither open, register nor describe anything. -/
theorem statements_plain {fragment : Fragment} (member : fragment ∈ plan.statements) :
    fragment.entry? = none ∧ fragment.registration? = none ∧ fragment.isArgument = false := by
  rcases mem_statements member with ⟨_, rfl⟩ | ⟨_, rfl⟩
  · exact ⟨rfl, rfl, rfl⟩
  · exact ⟨rfl, rfl, rfl⟩

theorem entries_unit (names : NameScheme) (plan : FunctionPlan) :
    (plan.unitFragments names).filterMap Fragment.entry? =
      [(names.entry plan.decl, plan.entryParams)] := by
  have arguments : plan.argumentFragments.filterMap Fragment.entry? = [] :=
    List.filterMap_eq_nil_iff.mpr fun _ member =>
      Fragment.entry?_of_isArgument (isArgument_of_mem_argumentFragments member)
  have statements : plan.statements.filterMap Fragment.entry? = [] :=
    List.filterMap_eq_nil_iff.mpr fun _ member => (statements_plain member).1
  rw [unitFragments, List.filterMap_append, List.filterMap_append, List.filterMap_append,
    arguments, statements]
  rfl

theorem registrations_unit (names : NameScheme) (plan : FunctionPlan) :
    (plan.unitFragments names).filterMap Fragment.registration? =
      [(names.functionObject plan.decl, names.entry plan.decl, plan.shape)] := by
  have arguments : plan.argumentFragments.filterMap Fragment.registration? = [] :=
    List.filterMap_eq_nil_iff.mpr fun _ member =>
      Fragment.registration?_of_isArgument (isArgument_of_mem_argumentFragments member)
  have statements : plan.statements.filterMap Fragment.registration? = [] :=
    List.filterMap_eq_nil_iff.mpr fun _ member => (statements_plain member).2.1
  rw [unitFragments, List.filterMap_append, List.filterMap_append, List.filterMap_append,
    arguments, statements]
  rfl

theorem arguments_unit (names : NameScheme) (plan : FunctionPlan) :
    (plan.unitFragments names).filter Fragment.isArgument = plan.argumentFragments := by
  have arguments : plan.argumentFragments.filter Fragment.isArgument = plan.argumentFragments :=
    List.filter_eq_self.mpr fun _ member => isArgument_of_mem_argumentFragments member
  have statements : plan.statements.filter Fragment.isArgument = [] :=
    List.filter_eq_nil_iff.mpr fun _ member =>
      Bool.eq_false_iff.mp (statements_plain member).2.2
  rw [unitFragments, List.filter_append, List.filter_append, List.filter_append, arguments,
    statements, List.append_nil]
  exact List.append_nil _

/-- The arguments stand right behind the head of the entry point. -/
theorem entryOpen_arguments_infix (names : NameScheme) (plan : FunctionPlan) :
    .entryOpen (names.entry plan.decl) plan.entryParams :: plan.argumentFragments <:+:
      plan.unitFragments names := by
  refine ⟨[.comment plan.decl.signature], plan.statements ++ [.blockClose, .functionObject
    (names.functionObject plan.decl) (names.entry plan.decl) plan.shape, .blank], ?_⟩
  simp only [unitFragments, List.append_assoc, List.cons_append, List.nil_append]

theorem agrees_of_fits (names : NameScheme) (planned : ofDecl f = .ok plan)
    (fits : f.Fits plan.shape) : Agrees f (plan.unitFragments names) := by
  obtain ⟨-, shaped, -, -⟩ := ofDecl_eq_ok_iff.mp planned
  refine ⟨_, _, _, _, shaped, entries_unit names plan, registrations_unit names plan, ?_, ?_⟩
  · rw [arguments_unit]
    exact entryOpen_arguments_infix names plan
  · rw [arguments_unit]
    exact takes_of_plan planned fits

/-- The unit of a function that is not a constructor agrees with its registration, whatever the
names are made of. -/
theorem unit_agrees (names : NameScheme) (ordinary : f.isConstructor = false)
    (planned : ofDecl f = .ok plan) : Agrees f (plan.listing names).fragments := by
  obtain ⟨-, shaped, -, -⟩ := ofDecl_eq_ok_iff.mp planned
  -- Nothing is taken off the shape of an ordinary function, so it fits the whole signature.
  obtain ⟨full, fullShaped, same⟩ := FunctionDecl.callShape_eq_ok_iff.mp shaped
  rw [ordinary, if_neg Bool.false_ne_true] at same
  rw [fragments_listing]
  refine agrees_of_fits names planned ?_
  rw [← same]
  exact FunctionDecl.fits_of_fullShape fullShaped

end FunctionPlan

/-- A method with a required parameter, an optional one and one that is passed by name only. -/
def scaleMethod : FunctionDecl where
  name := "scale"
  owner := some "Image"
  params := [⟨"self", .positional, none, none⟩,
    ⟨"factor", .positional, some (.int 2), some "int"⟩,
    ⟨"smooth", .keywordOnly, none, some "bool"⟩]
  varargs := false
  varkw := false
  doc := none
  returns := none

/-- The plan of `scaleMethod`: one positional argument is required. -/
def scalePlan : FunctionPlan where
  decl := scaleMethod
  shape := .keyword 1
  args := [⟨⟨"self", .positional, none, none⟩, .object⟩,
    ⟨⟨"factor", .positional, some (.int 2), some "int"⟩, .integer⟩,
    ⟨⟨"smooth", .keywordOnly, none, some "bool"⟩, .boolean⟩]
  raw := []

/-- The method is no constructor and has a plan, so that its unit agrees with its registration. -/
theorem scaleMethod_agrees :
    scaleMethod.isConstructor = false ∧ FunctionPlan.ofDecl scaleMethod = .ok scalePlan ∧
      Agrees scaleMethod (scalePlan.listing ⟨"image"⟩).fragments := by
  have ordinary : scaleMethod.isConstructor = false := by decide
  have planned : FunctionPlan.ofDecl scaleMethod = .ok scalePlan := rfl
  exact ⟨ordinary, planned, FunctionPlan.unit_agrees ⟨"image"⟩ ordinary planned⟩

end BindingGen
