import BindingGen.Proofs.Reference

/-!
# Brackets and depths

A source is a flat sequence of fragments, and the depth of each is fixed by its kind. The nesting
itself comes about by the order in which the parts of a listing put their fragments: an entry point
opens a body, the table of arguments opens inside a body, and a map opens outside everything.
`after?` scans such a sequence with a stack, and `Placed` says where on the stack a fragment may
stand.

`Runs stack part final` carries both through a part of a listing: every part but an opening fragment
ends with the stack that it started with, so that parts can be put together in any order and number.

Results:
1. `Runs.scan`, `Runs.placed`: a run is a scan that succeeds, with every fragment in its place.
2. `FunctionPlan.runs_unit`, `FunctionPlan.runs_maker`, `ClassPlan.runs`: every unit leaves the
   stack as it finds it, whatever optional pieces it has.
3. `well_bracketed`: the source of any plan is balanced, every fragment stands at its depth, and all
   but the head of the file is under one condition.
-/

namespace BindingGen

/-! ## Brackets -/

/-- What is opened by one fragment and closed by a later one. -/
inductive Bracket where
  /-- The body of an entry point. -/
  | body
  /-- The table of the arguments of a function. -/
  | argTable
  /-- A map. -/
  | map
  deriving DecidableEq, Repr

namespace Fragment

/-- The bracket that a fragment opens. -/
def opens? : Fragment → Option Bracket
  | entryOpen _ _ => some .body
  | argTableOpen => some .argTable
  | mapOpen _ => some .map
  | _ => none

/-- The bracket that a fragment closes. -/
def closes? : Fragment → Option Bracket
  | blockClose => some .body
  | argTableClose => some .argTable
  | mapClose => some .map
  | _ => none

/-- The brackets that are open behind a fragment, the innermost first. There are none such if the
fragment closes another bracket than the innermost one. -/
def after? (stack : List Bracket) (fragment : Fragment) : Option (List Bracket) :=
  match fragment.closes?, stack with
  | some bracket, innermost :: outer => if bracket = innermost then some outer else none
  | some _, [] => none
  | none, _ => some (fragment.opens?.toList ++ stack)

/-- `Placed stack fragment`: inside these brackets a fragment stands where it may, and its depth is
the number of brackets around it. A closing fragment stands around what it closes. -/
structure Placed (stack : List Bracket) (fragment : Fragment) : Prop where
  body_outermost : fragment.opens? = some .body → stack = []
  map_outermost : fragment.opens? = some .map → stack = []
  argTable_in_body : fragment.opens? = some .argTable → stack.head? = some .body
  depth : fragment.closes? = none → fragment.depth = stack.length
  depth_of_closes : ∀ bracket, fragment.closes? = some bracket →
    ∀ outer, fragment.after? stack = some outer → fragment.depth = outer.length

/-- Whether a fragment may stand outside the condition of the module. -/
def isPreamble : Fragment → Bool
  | header _ _ _ => true
  | includeFile _ => true
  | blank => true
  | _ => false

/-- Whether a fragment opens or closes a condition. -/
def isCondition : Fragment → Bool
  | ifOpen _ => true
  | ifClose _ => true
  | _ => false

theorem isCondition_of_isUnitPart {fragment : Fragment} (part : fragment.isUnitPart = true) :
    fragment.isCondition = false := by
  cases fragment with
  | ifOpen | ifClose => cases part
  | _ => rfl

end Fragment

/-! ## Runs -/

/-- `Runs stack part final`: scanned inside the brackets `stack`, every fragment of the part is
placed, and behind it the brackets `final` are open. -/
inductive Runs : List Bracket → List Fragment → List Bracket → Prop
  | nil {stack : List Bracket} : Runs stack [] stack
  | cons {stack next final : List Bracket} {fragment : Fragment} {rest : List Fragment} :
      fragment.Placed stack → fragment.after? stack = some next → Runs next rest final →
      Runs stack (fragment :: rest) final

namespace Runs

variable {stack middle final : List Bracket} {fragment : Fragment} {a b rest : List Fragment}

/-- A run is a scan that succeeds. -/
theorem scan (runs : Runs stack a final) : a.foldlM Fragment.after? stack = some final := by
  induction runs with
  | nil => rfl
  | cons _ step _ ih =>
    rw [List.foldlM_cons, step]
    exact ih

/-- In a run every fragment is placed inside the brackets that are open before it. -/
theorem placed (runs : Runs stack a final) {before after : List Fragment}
    (split : a = before ++ fragment :: after) :
    ∃ inside, before.foldlM Fragment.after? stack = some inside ∧ fragment.Placed inside := by
  induction runs generalizing before with
  | nil =>
    exact absurd split.symm (List.append_ne_nil_of_right_ne_nil _ (List.cons_ne_nil _ _))
  | cons first step _ ih =>
    rcases List.cons_eq_append_iff.mp split with ⟨rfl, same⟩ | ⟨tail, rfl, same⟩
    · cases same
      exact ⟨_, rfl, first⟩
    · obtain ⟨inside, scanned, found⟩ := ih same
      refine ⟨inside, ?_, found⟩
      rw [List.foldlM_cons, step]
      exact scanned

theorem append (first : Runs stack a middle) (second : Runs middle b final) :
    Runs stack (a ++ b) final := by
  induction first with
  | nil => exact second
  | cons placed step _ ih => exact .cons placed step (ih second)

theorem flatMap {α : Type} {as : List α} {f : α → List Fragment}
    (each : ∀ x ∈ as, Runs stack (f x) stack) : Runs stack (as.flatMap f) stack := by
  induction as with
  | nil => exact .nil
  | cons x as ih =>
    rw [List.flatMap_cons]
    exact (each x List.mem_cons_self).append
      (ih fun y later => each y (List.mem_cons_of_mem _ later))

/-- A fragment that opens and closes nothing has only its depth to meet. -/
theorem plain (opens : fragment.opens? = none) (closes : fragment.closes? = none)
    (depth : fragment.depth = stack.length) (runs : Runs stack rest final) :
    Runs stack (fragment :: rest) final := by
  refine .cons ⟨?_, ?_, ?_, fun _ => depth, ?_⟩ ?_ runs
  · intro body
    cases opens.symm.trans body
  · intro map
    cases opens.symm.trans map
  · intro table
    cases opens.symm.trans table
  · intro bracket closer
    cases closes.symm.trans closer
  · unfold Fragment.after?
    rw [closes, opens]
    rfl

/-- The closing fragment of the innermost bracket takes it off. -/
theorem close {bracket : Bracket} (opens : fragment.opens? = none)
    (closes : fragment.closes? = some bracket) (depth : fragment.depth = stack.length)
    (runs : Runs stack rest final) : Runs (bracket :: stack) (fragment :: rest) final := by
  have step : fragment.after? (bracket :: stack) = some stack := by
    unfold Fragment.after?
    rw [closes]
    exact if_pos rfl
  refine .cons ⟨?_, ?_, ?_, ?_, ?_⟩ step runs
  · intro body
    cases opens.symm.trans body
  · intro map
    cases opens.symm.trans map
  · intro table
    cases opens.symm.trans table
  · intro open_
    cases closes.symm.trans open_
  · intro _ _ outer found
    cases step.symm.trans found
    exact depth

theorem openBody {name : String} {params : EntryParams} (runs : Runs [.body] rest final) :
    Runs [] (.entryOpen name params :: rest) final :=
  .cons ⟨fun _ => rfl, fun _ => rfl, nofun, fun _ => rfl, nofun⟩ rfl runs

theorem openMap {name : String} (runs : Runs [.map] rest final) :
    Runs [] (.mapOpen name :: rest) final :=
  .cons ⟨fun _ => rfl, fun _ => rfl, nofun, fun _ => rfl, nofun⟩ rfl runs

theorem openTable (runs : Runs [.argTable, .body] rest final) :
    Runs [.body] (.argTableOpen :: rest) final :=
  .cons ⟨nofun, nofun, fun _ => rfl, fun _ => rfl, nofun⟩ rfl runs

/-- Fragments that open and close nothing leave the stack as it is. -/
theorem of_plain (opens : ∀ fragment ∈ a, fragment.opens? = none)
    (closes : ∀ fragment ∈ a, fragment.closes? = none)
    (depth : ∀ fragment ∈ a, fragment.depth = stack.length) : Runs stack a stack := by
  induction a with
  | nil => exact .nil
  | cons fragment a ih =>
    obtain ⟨firstOpens, opens⟩ := List.forall_mem_cons.mp opens
    obtain ⟨firstCloses, closes⟩ := List.forall_mem_cons.mp closes
    obtain ⟨firstDepth, depth⟩ := List.forall_mem_cons.mp depth
    exact plain firstOpens firstCloses firstDepth (ih opens closes depth)

theorem mapFragments {table dict : String} {entries : List Fragment}
    (plain : ∀ fragment ∈ entries, fragment.isMapEntry = true) :
    Runs [] (mapFragments table dict entries) [] := by
  have inside : Runs [.map] entries [.map] := by
    refine of_plain ?_ ?_ ?_
    all_goals
      intro fragment member
      have entry := plain fragment member
      cases fragment with
      | mapEntry => rfl
      | _ => cases entry
  rw [BindingGen.mapFragments]
  exact ((openMap .nil).append inside).append
    (.close rfl rfl rfl (.plain rfl rfl rfl (.plain rfl rfl rfl .nil)))

end Runs

/-! ## Units -/

namespace FunctionPlan

variable (names : NameScheme) (plan : FunctionPlan)

theorem runs_slotEnum : Runs [.body] plan.slotEnum [.body] := by
  unfold slotEnum
  split
  · exact .nil
  · exact .plain rfl rfl rfl .nil

/-- The table of arguments stands inside the body and is closed before the call that checks them. -/
theorem runs_tableFragments : Runs [.body] plan.tableFragments [.body] := by
  have rows : Runs [.argTable, .body] (plan.args.map fun argument => .argRow argument.row)
      [.argTable, .body] := by
    refine .of_plain ?_ ?_ ?_
    all_goals
      intro fragment member
      obtain ⟨argument, _, rfl⟩ := List.mem_map.mp member
      rfl
  rw [tableFragments]
  exact ((plan.runs_slotEnum.append (.openTable .nil)).append rows).append
    (.close rfl rfl rfl (.plain rfl rfl rfl .nil))

theorem runs_argumentFragments : Runs [.body] plan.argumentFragments [.body] := by
  have table : Runs [.body] plan.argTable.fragments [.body] := by
    rw [fragments_argTable]
    split
    · exact .nil
    · exact plan.runs_tableFragments
  unfold argumentFragments argPart
  split
  · exact .nil
  · exact table
  · rw [Listing.fragments_ofFragments]
    exact plan.runs_slotEnum
  · exact table

theorem runs_rawPart : Runs [.body] plan.rawPart [.body] := by
  refine .of_plain ?_ ?_ ?_
  all_goals
    intro fragment member
    obtain ⟨line, _, rfl⟩ := List.mem_map.mp member
    rfl

theorem runs_statements : Runs [.body] plan.statements [.body] := by
  unfold statements
  split
  · exact .plain rfl rfl rfl .nil
  · exact plan.runs_rawPart

/-- The unit of a function leaves the stack as it is, with or without arguments and lines of C. -/
theorem runs_unit : Runs [] (plan.unitFragments names) [] := by
  rw [unitFragments]
  have opening : Runs []
      [.comment plan.decl.signature, .entryOpen (names.entry plan.decl) plan.entryParams] [.body] :=
    .plain rfl rfl rfl (.openBody .nil)
  have closing : Runs [.body] [.blockClose, .functionObject (names.functionObject plan.decl)
      (names.entry plan.decl) plan.shape, .blank] [] :=
    .close rfl rfl rfl (.plain rfl rfl rfl (.plain rfl rfl rfl .nil))
  exact ((opening.append plan.runs_argumentFragments).append plan.runs_statements).append closing

theorem runs_maker (className : String) : Runs [] (plan.makerFragments names className) [] := by
  rw [makerFragments]
  have opening : Runs [] [.comment plan.decl.signature,
      .entryOpen (names.makeNew className) .makeNew,
      .arityCheck plan.shape.min plan.shape.max plan.shape.takesKeywords,
      .allocate (names.layout className)] [.body] :=
    .plain rfl rfl rfl (.openBody (.plain rfl rfl rfl (.plain rfl rfl rfl .nil)))
  have closing : Runs [.body] [.returnValue "MP_OBJ_FROM_PTR(self)", .blockClose, .blank] [] :=
    .plain rfl rfl rfl (.close rfl rfl rfl (.plain rfl rfl rfl .nil))
  exact (opening.append plan.runs_rawPart).append closing

end FunctionPlan

/-! ## Classes -/

namespace ClassPlan

variable (names : NameScheme) (plan : ClassPlan)

theorem runs_localsPart : Runs [] (plan.localsPart names) [] := by
  unfold localsPart
  split
  · exact .nil
  · refine .mapFragments fun fragment member => ?_
    obtain ⟨_, _, rfl⟩ := List.mem_map.mp member
    rfl

/-- A class leaves the stack as it is, with or without a constructor and methods. -/
theorem runs : Runs [] (plan.classFragments names) [] := by
  have methods : Runs [] (plan.methods.flatMap (·.unitFragments names)) [] :=
    .flatMap fun method _ => method.runs_unit names
  have maker : Runs [] (plan.maker.toList.flatMap (·.makerFragments names plan.decl.name)) [] :=
    .flatMap fun maker _ => maker.runs_maker names plan.decl.name
  have layout : Runs [] [.instanceLayout (names.layout plan.decl.name), .blank] [] :=
    .plain rfl rfl rfl (.plain rfl rfl rfl .nil)
  have type : Runs [] (plan.typePart names) [] := .plain rfl rfl rfl (.plain rfl rfl rfl .nil)
  exact (((layout.append methods).append maker).append (plan.runs_localsPart names)).append type

end ClassPlan

/-! ## Modules -/

namespace ModulePlan

variable (names : NameScheme) (plan : ModulePlan)

theorem runs_opening : Runs [] (plan.opening names) [] :=
  .plain rfl rfl rfl (.plain rfl rfl rfl (.plain rfl rfl rfl (.plain rfl rfl rfl
    (.plain rfl rfl rfl (.plain rfl rfl rfl (.plain rfl rfl rfl .nil))))))

theorem runs_definitionPart : Runs [] (plan.definitionPart names) [] := by
  have functions : Runs [] (plan.functions.flatMap (·.unitFragments names)) [] :=
    .flatMap fun function _ => function.runs_unit names
  have classes : Runs [] (plan.classes.flatMap (·.classFragments names)) [] :=
    .flatMap fun c _ => c.runs names
  have globals : Runs [] (plan.globalsPart names) [] :=
    .mapFragments fun _ => isMapEntry_of_mem_globalEntries names plan
  exact (functions.append classes).append globals

/-- The whole source of a module is one run that starts and ends outside of everything. -/
theorem runs : Runs [] (plan.listing names).fragments [] := by
  rw [fragments_eq_definitionPart]
  refine ((plan.runs_opening names).append (plan.runs_definitionPart names)).append ?_
  exact .plain rfl rfl rfl (.plain rfl rfl rfl (.plain rfl rfl rfl (.plain rfl rfl rfl
    (.plain rfl rfl rfl .nil))))

/-- Only the head of the file stands before the condition of the module, nothing stands behind its
end, and there is no condition in between. -/
theorem under_condition : ∃ before inner,
    (plan.listing names).fragments =
      before ++ .ifOpen names.guard :: inner ++ [.ifClose names.guard] ∧
    (∀ fragment ∈ before, fragment.isPreamble = true) ∧
    ∀ fragment ∈ inner, fragment.isCondition = false := by
  refine ⟨[.header plan.decl.name plan.decl.author plan.decl.year, .blank] ++
      includedFiles.map .includeFile ++ [.blank],
    .blank :: plan.definitionPart names ++
      [.moduleDefine names.moduleObject names.globalsDict, .blank,
        .register plan.decl.name names.moduleObject names.guard, .blank], ?_, ?_, ?_⟩
  · rw [fragments_eq_definitionPart, opening]
    simp only [List.append_assoc, List.cons_append, List.nil_append]
  · intro fragment member
    simp only [includedFiles, List.map_cons, List.map_nil, List.mem_append, List.mem_cons,
      List.not_mem_nil, or_false] at member
    rcases member with ((rfl | rfl) | (rfl | rfl)) | rfl
    all_goals rfl
  · intro fragment member
    simp only [List.mem_append, List.mem_cons, List.not_mem_nil, or_false] at member
    rcases member with (rfl | inDefinitions) | (rfl | rfl | rfl | rfl)
    · rfl
    · exact Fragment.isCondition_of_isUnitPart
        (isUnitPart_of_mem_definitionPart names plan inDefinitions)
    all_goals rfl

/-- The source of a plan, whatever its names start with, is well bracketed: a scan of it succeeds
and leaves nothing open, and every fragment stands where it may, at its own depth. One condition
encloses everything but the head of the file. -/
theorem well_bracketed :
    (plan.listing names).fragments.foldlM Fragment.after? [] = some [] ∧
    (∀ before fragment after,
      (plan.listing names).fragments = before ++ fragment :: after →
        ∃ stack, before.foldlM Fragment.after? [] = some stack ∧ fragment.Placed stack) ∧
    ∃ before inner,
      (plan.listing names).fragments =
        before ++ .ifOpen names.guard :: inner ++ [.ifClose names.guard] ∧
      (∀ fragment ∈ before, fragment.isPreamble = true) ∧
      ∀ fragment ∈ inner, fragment.isCondition = false :=
  ⟨(plan.runs names).scan, fun _ _ _ split => (plan.runs names).placed split,
    plan.under_condition names⟩

end ModulePlan

end BindingGen
