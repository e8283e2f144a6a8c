import BindingGen.Proofs.Unit

/-!
# Which slots a positional call fills

A function with an argument table is registered with bounds on the number of its positional
arguments. The bounds are counted: the least is the number of required positional parameters, the
greatest the number of all positional ones. The table keeps the order of declaration, and a call
fills its rows from the first one on. So bounds and table agree where the required positional
parameters come first and those passed by name only come last; nothing checks that they do.

Results:
1. `leads_iff`: elements with a property come first if and only if counting them tells where.
2. `tableAgrees_iff`: the table of a planned function agrees with its bounds if and only if its
   parameters are in order.
3. `mixedModule_disagrees`: a required parameter behind an optional one is accepted.
-/

namespace BindingGen

/-! ## Elements that come first -/

/-- `Leads p as`: no element without the property comes before one with it. -/
def Leads {α : Type} (p : α → Bool) (as : List α) : Prop := as.Pairwise fun a b => p b → p a

instance {α : Type} (p : α → Bool) (as : List α) : Decidable (Leads p as) :=
  inferInstanceAs (Decidable (as.Pairwise _))

section Leading

variable {α β : Type} {p : α → Bool} {as : List α}

theorem leads_map {f : β → α} {bs : List β} :
    Leads p (bs.map f) ↔ Leads (fun b => p (f b)) bs :=
  List.pairwise_map

/-- As many elements as have the property do so at the front, if and only if none does behind. -/
theorem take_countP_iff_drop :
    (∀ a ∈ as.take (as.countP p), p a = true) ↔ ∀ a ∈ as.drop (as.countP p), p a = false := by
  have front : (as.take (as.countP p)).length = as.countP p :=
    List.length_take_of_le List.countP_le_length
  have total : (as.take (as.countP p)).countP p + (as.drop (as.countP p)).countP p =
      as.countP p := by
    rw [← List.countP_append, List.take_append_drop]
  rw [← List.countP_eq_length, front]
  simp only [← Bool.not_eq_true]
  rw [← List.countP_eq_zero]
  omega

/-- The elements with a property come first if and only if they are as many as there are at the
front. -/
theorem leads_iff : Leads p as ↔ ∀ a ∈ as.take (as.countP p), p a = true := by
  constructor
  · intro leads
    induction as with
    | nil => exact nofun
    | cons a as ih =>
      obtain ⟨first, rest⟩ := List.pairwise_cons.mp leads
      cases held : p a with
      | true =>
        rw [List.countP_cons_of_pos held, List.take_succ_cons]
        exact List.forall_mem_cons.mpr ⟨held, ih rest⟩
      | false =>
        have none : (a :: as).countP p = 0 := by
          rw [List.countP_eq_zero]
          simp_all
        rw [none]
        exact nofun
  · intro front
    have behind := take_countP_iff_drop.mp front
    rw [Leads, ← List.take_append_drop (as.countP p) as, List.pairwise_append]
    refine ⟨?_, ?_, ?_⟩
    · exact List.pairwise_of_forall_mem_list fun a member _ _ _ => front a member
    · refine List.pairwise_of_forall_mem_list fun _ _ b member held => ?_
      rw [behind b member] at held
      cases held
    · exact fun a member _ _ _ => front a member

/-- The elements with a property come first if and only if none stands behind the first one that
lacks it. -/
theorem leads_iff_dropWhile : Leads p as ↔ ∀ a ∈ as.dropWhile p, p a = false := by
  induction as with
  | nil => simp [Leads]
  | cons a as ih =>
    unfold Leads at ih ⊢
    rw [List.pairwise_cons]
    cases held : p a with
    | true =>
      rw [List.dropWhile_cons_of_pos held, ← ih]
      simp
    | false =>
      rw [List.dropWhile_cons_of_neg (by simp [held]), List.forall_mem_cons]
      constructor
      · rintro ⟨none, -⟩
        exact ⟨held, fun b member => by simpa using none b member⟩
      · rintro ⟨-, none⟩
        refine ⟨fun b member => by simp [none b member], ?_⟩
        exact List.pairwise_of_forall_mem_list fun _ _ b member => by simp [none b member]

end Leading

/-! ## Rows and bounds -/

/-- The row of a table that a fragment holds. -/
def Fragment.argRow? : Fragment → Option ArgRow
  | argRow row => some row
  | _ => none

namespace ArgRow

/-- Whether a slot may be filled by position. -/
def isPositional (row : ArgRow) : Bool := !row.keywordOnly

/-- Whether a slot may be filled by position and has to be filled. -/
def isAwaited (row : ArgRow) : Bool := row.required && !row.keywordOnly

end ArgRow

/-- `TableAgrees least most rows`: a call with at least `least` and at most `most` positional
arguments fills slots that may be filled by position, and of the others it leaves only those
unfilled that have a default or are filled by name. -/
structure TableAgrees (least most : Nat) (rows : List ArgRow) : Prop where
  enough : most ≤ rows.length
  filled : ∀ n, least ≤ n → n ≤ most → ∀ row ∈ rows.take n, row.keywordOnly = false
  unfilled : ∀ n, least ≤ n → n ≤ most → ∀ row ∈ rows.drop n,
    row.required = true → row.keywordOnly = true

/-- Where the bounds are counted off the table, it agrees with them if and only if the rows that may
be filled by position come first, and of these the ones that have to be filled. -/
theorem tableAgrees_iff_leads {rows : List ArgRow} :
    TableAgrees (rows.countP ArgRow.isAwaited) (rows.countP ArgRow.isPositional) rows ↔
      Leads ArgRow.isPositional rows ∧ Leads ArgRow.isAwaited rows := by
  have bounds : rows.countP ArgRow.isAwaited ≤ rows.countP ArgRow.isPositional :=
    List.countP_mono_left fun row _ awaited => (Bool.and_eq_true_iff.mp awaited).2
  constructor
  · intro agrees
    refine ⟨leads_iff.mpr fun row member => ?_, leads_iff.mpr ?_⟩
    · rw [ArgRow.isPositional, agrees.filled _ bounds (Nat.le_refl _) row member]
      rfl
    · refine take_countP_iff_drop.mpr fun row member => ?_
      have named := agrees.unfilled _ (Nat.le_refl _) bounds row member
      unfold ArgRow.isAwaited
      cases required : row.required with
      | false => rfl
      | true => rw [named required]; rfl
  · rintro ⟨positional, awaited⟩
    refine ⟨List.countP_le_length, fun n _ most row member => ?_, fun n least _ row member => ?_⟩
    · have first := leads_iff.mp positional row (List.take_subset_take_left _ most member)
      simpa [ArgRow.isPositional] using first
    · have behind := take_countP_iff_drop.mp (leads_iff.mp awaited) row
        (List.drop_subset_drop_left _ least member)
      intro required
      simpa [ArgRow.isAwaited, required] using behind

/-! ## Planned functions -/

/-- The parameters of a function are in order: those that may be passed by position come first, and
of these the ones without a default. -/
structure FunctionDecl.InOrder (f : FunctionDecl) : Prop where
  positional : Leads (fun p => !p.isKeywordOnly) f.params
  required : Leads (fun p => !p.hasDefault && !p.isKeywordOnly) f.params

namespace FunctionPlan

variable {f : FunctionDecl} {plan : FunctionPlan}

theorem argRow?_of_mem_statements {fragment : Fragment} (member : fragment ∈ plan.statements) :
    fragment.argRow? = none := by
  rcases mem_statements member with ⟨-, rfl⟩ | ⟨line, rfl⟩
  · rfl
  · rfl

theorem argRows_argTable :
    plan.argTable.fragments.filterMap Fragment.argRow? = plan.args.map (·.row) := by
  rw [fragments_argTable]
  split
  · next empty => rw [List.isEmpty_iff.mp empty]; rfl
  · have enumeration : plan.slotEnum.filterMap Fragment.argRow? = [] :=
      List.filterMap_eq_nil_iff.mpr fun fragment member => by rw [mem_slotEnum member]; rfl
    have rows : (plan.args.map fun argument => Fragment.argRow argument.row).filterMap
        Fragment.argRow? = plan.args.map (·.row) := by
      simp [Function.comp_def, Fragment.argRow?]
    rw [tableFragments, List.filterMap_append, List.filterMap_append, List.filterMap_append,
      enumeration, rows]
    simp [List.filterMap_cons, Fragment.argRow?]

/-- The rows in the unit of a function with an argument table are those of its slots. -/
theorem argRows_unit (names : NameScheme) (table : plan.shape.hasArgTable = true) :
    (plan.unitFragments names).filterMap Fragment.argRow? = plan.args.map (·.row) := by
  have statements : plan.statements.filterMap Fragment.argRow? = [] :=
    List.filterMap_eq_nil_iff.mpr fun _ => argRow?_of_mem_statements
  have arguments : plan.argumentFragments = plan.argTable.fragments := by
    unfold argumentFragments argPart
    cases shaped : plan.shape with
    | between => rfl
    | keyword => rfl
    | fixed | atLeast =>
      rw [shaped] at table
      cases table
  rw [unitFragments, List.filterMap_append, List.filterMap_append, List.filterMap_append,
    statements, arguments, argRows_argTable]
  simp [List.filterMap_cons, Fragment.argRow?]

/-- The bounds of a function with an argument table are counted off its parameters. -/
theorem min_of_hasArgTable (ordinary : f.isConstructor = false) (planned : ofDecl f = .ok plan)
    (table : plan.shape.hasArgTable = true) : plan.shape.min = f.required.length := by
  obtain ⟨-, shaped, -, -⟩ := ofDecl_eq_ok_iff.mp planned
  obtain ⟨full, fullShaped, same⟩ := FunctionDecl.callShape_eq_ok_iff.mp shaped
  rw [ordinary, if_neg Bool.false_ne_true] at same
  rw [← same] at table ⊢
  cases FunctionDecl.fits_of_fullShape fullShaped with
  | keyword => rfl
  | between => rfl
  | fixed | atLeast => cases table

/-- The table of a planned function agrees with the bounds that the function is registered with, if
and only if its parameters are in order. -/
theorem tableAgrees_iff (names : NameScheme) (ordinary : f.isConstructor = false)
    (planned : ofDecl f = .ok plan) (table : plan.shape.hasArgTable = true) :
    TableAgrees plan.shape.min f.positional.length
        ((plan.listing names).fragments.filterMap Fragment.argRow?) ↔ f.InOrder := by
  have params := args_map_param planned
  have least : plan.shape.min = (plan.args.map (·.row)).countP ArgRow.isAwaited := by
    rw [min_of_hasArgTable ordinary planned table, FunctionDecl.length_required, ← params,
      List.countP_map, List.countP_map]
    rfl
  have most : f.positional.length = (plan.args.map (·.row)).countP ArgRow.isPositional := by
    rw [FunctionDecl.positional, ← List.countP_eq_length_filter, ← params, List.countP_map,
      List.countP_map]
    rfl
  rw [fragments_listing, argRows_unit names table, least, most, tableAgrees_iff_leads, leads_map,
    leads_map]
  constructor
  · rintro ⟨positional, required⟩
    refine ⟨?_, ?_⟩
    · rw [← params, leads_map]
      exact positional
    · rw [← params, leads_map]
      exact required
  · rintro ⟨positional, required⟩
    rw [← params, leads_map] at positional required
    exact ⟨positional, required⟩

end FunctionPlan

/-! ## Two functions -/

theorem scaleMethod_inOrder :
    scaleMethod.isConstructor = false ∧ FunctionPlan.ofDecl scaleMethod = .ok scalePlan ∧
      scalePlan.shape.hasArgTable = true ∧
      TableAgrees scalePlan.shape.min scaleMethod.positional.length
        ((scalePlan.listing ⟨"image"⟩).fragments.filterMap Fragment.argRow?) := by
  have ordinary : scaleMethod.isConstructor = false := by decide
  have planned : FunctionPlan.ofDecl scaleMethod = .ok scalePlan := rfl
  refine ⟨ordinary, planned, rfl, ?_⟩
  exact (FunctionPlan.tableAgrees_iff ⟨"image"⟩ ordinary planned rfl).mpr ⟨by decide, by decide⟩

/-- A function with a required parameter behind an optional one. -/
def mixedFunction : FunctionDecl where
  name := "f"
  owner := none
  params := [⟨"a", .positional, some (.int 1), none⟩, ⟨"b", .positional, none, none⟩]
  varargs := false
  varkw := false
  doc := none
  returns := none

/-- The plan of `mixedFunction`: one positional argument is required. -/
def mixedPlan : FunctionPlan where
  decl := mixedFunction
  shape := .between 1 2
  args := [⟨⟨"a", .positional, some (.int 1), none⟩, .object⟩,
    ⟨⟨"b", .positional, none, none⟩, .object⟩]
  raw := []

/-- A module that holds `mixedFunction`. -/
def mixedModule : ModuleDecl := ⟨"m", none, none, [mixedFunction], []⟩

/-- The module is accepted, but a call of its function with the one argument that it is registered
with as least leaves the slot of the required parameter unfilled. -/
theorem mixedModule_disagrees :
    ModulePlan.ofValid mixedModule = .ok ⟨mixedModule, [mixedPlan], []⟩ ∧
      mixedFunction.isConstructor = false ∧ mixedPlan.shape.hasArgTable = true ∧
      ¬ TableAgrees mixedPlan.shape.min mixedFunction.positional.length
        ((mixedPlan.listing ⟨"m"⟩).fragments.filterMap Fragment.argRow?) := by
  refine ⟨rfl, by decide, rfl, fun agrees => ?_⟩
  have awaited := agrees.unfilled 1 (by decide) (by decide) ⟨"b", true, false, .object, none⟩
    (by decide) rfl
  cases awaited

end BindingGen
