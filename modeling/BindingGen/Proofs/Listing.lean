import BindingGen.Listing

/-!
# The fragments of a listing

A listing mixes fragments with notes. Here its parts are given as lists of fragments alone: a unit
of a function is `unitFragments`, a unit of a constructor `makerFragments`, and classes and modules
put them together in the order of declaration.
-/

namespace BindingGen

namespace Listing

@[simp] theorem fragments_flatMap {α : Type} (as : List α) (f : α → Listing) :
    fragments (as.flatMap f) = as.flatMap fun a => (f a).fragments := by
  induction as with
  | nil => rfl
  | cons a as ih => rw [List.flatMap_cons, fragments_append, ih, List.flatMap_cons]

end Listing

namespace FunctionPlan

variable (plan : FunctionPlan)

theorem fragments_rows :
    Listing.fragments (plan.args.flatMap (·.listing)) =
      plan.args.map fun argument => .argRow argument.row := by
  rw [Listing.fragments_flatMap]
  have single : ∀ argument : ArgSlot, argument.listing.fragments = [.argRow argument.row] := by
    intro argument
    rw [ArgSlot.listing, Listing.fragments_append, Listing.fragments_ofNotes,
      Listing.fragments_ofFragments, List.nil_append]
  simp only [single]
  exact List.map_eq_flatMap.symm

/-- The table of the arguments of a function, with the enumeration before it and the call that
checks them behind it. -/
def tableFragments : List Fragment :=
  plan.slotEnum ++ [.argTableOpen] ++ (plan.args.map fun argument => .argRow argument.row) ++
    [.argTableClose, .argParse plan.shape.takesKeywords]

theorem fragments_argTable :
    plan.argTable.fragments = if plan.args.isEmpty then [] else plan.tableFragments := by
  unfold argTable
  split
  · rfl
  · rw [Listing.fragments_append, Listing.fragments_append, fragments_rows,
      Listing.fragments_ofFragments, Listing.fragments_ofFragments]
    rfl

/-- What the body of a function declares about its arguments, as fragments. -/
def argumentFragments : List Fragment := plan.argPart.fragments

variable {plan} in
theorem mem_slotEnum {fragment : Fragment} (member : fragment ∈ plan.slotEnum) :
    fragment = .slotEnum (plan.args.map fun slot => NameScheme.argSlot slot.param.name) := by
  unfold slotEnum at member
  split at member
  · cases member
  · exact List.mem_singleton.mp member

variable {plan} in
/-- What a body may declare about arguments: their enumeration, the parts of their table, and the
call that checks them. -/
theorem mem_argumentFragments {fragment : Fragment} (member : fragment ∈ plan.argumentFragments) :
    fragment = .slotEnum (plan.args.map fun slot => NameScheme.argSlot slot.param.name) ∨
      fragment = .argTableOpen ∨ (∃ slot ∈ plan.args, fragment = .argRow slot.row) ∨
      fragment = .argTableClose ∨ ∃ keywords, fragment = .argParse keywords := by
  have ofTable : fragment ∈ plan.argTable.fragments →
      fragment = .slotEnum (plan.args.map fun slot => NameScheme.argSlot slot.param.name) ∨
        fragment = .argTableOpen ∨ (∃ slot ∈ plan.args, fragment = .argRow slot.row) ∨
        fragment = .argTableClose ∨ ∃ keywords, fragment = .argParse keywords := by
    intro member
    rw [fragments_argTable] at member
    split at member
    · cases member
    · simp only [tableFragments, List.mem_append, List.mem_map, List.mem_cons, List.not_mem_nil,
        or_false] at member
      rcases member with ((inEnum | rfl) | ⟨slot, inArgs, rfl⟩) | rfl | rfl
      · exact .inl (mem_slotEnum inEnum)
      · exact .inr (.inl rfl)
      · exact .inr (.inr (.inl ⟨slot, inArgs, rfl⟩))
      · exact .inr (.inr (.inr (.inl rfl)))
      · exact .inr (.inr (.inr (.inr ⟨_, rfl⟩)))
  unfold argumentFragments argPart at member
  split at member
  · cases member
  · exact ofTable member
  · rw [Listing.fragments_ofFragments] at member
    exact .inl (mem_slotEnum member)
  · exact ofTable member

variable {plan} in
/-- The statements of a function are the lines that its documentation carries, or a placeholder
where there are none. -/
theorem mem_statements {fragment : Fragment} (member : fragment ∈ plan.statements) :
    (plan.raw = [] ∧ fragment = .placeholder plan.decl.qualifiedName) ∨
      ∃ line, fragment = .raw line := by
  unfold statements at member
  split at member
  · next none => exact .inl ⟨List.isEmpty_iff.mp none, List.mem_singleton.mp member⟩
  · obtain ⟨line, _, rfl⟩ := List.mem_map.mp member
    exact .inr ⟨line, rfl⟩

/-- The fragments of a unit of a function. -/
def unitFragments (names : NameScheme) : List Fragment :=
  [.comment plan.decl.signature, .entryOpen (names.entry plan.decl) plan.entryParams] ++
    plan.argumentFragments ++ plan.statements ++
    [.blockClose, .functionObject (names.functionObject plan.decl) (names.entry plan.decl)
      plan.shape, .blank]

theorem fragments_listing (names : NameScheme) :
    (plan.listing names).fragments = plan.unitFragments names := by
  simp only [listing, Listing.fragments_append, Listing.fragments_ofNotes,
    Listing.fragments_ofFragments, List.nil_append, unitFragments, argumentFragments,
    List.append_assoc]

/-- The fragments of a unit of a constructor. -/
def makerFragments (names : NameScheme) (className : String) : List Fragment :=
  [.comment plan.decl.signature, .entryOpen (names.makeNew className) .makeNew,
    .arityCheck plan.shape.min plan.shape.max plan.shape.takesKeywords,
    .allocate (names.layout className)] ++ plan.rawPart ++
    [.returnValue "MP_OBJ_FROM_PTR(self)", .blockClose, .blank]

theorem fragments_makerListing (names : NameScheme) (className : String) :
    (plan.makerListing names className).fragments = plan.makerFragments names className := by
  simp only [makerListing, Listing.fragments_append, Listing.fragments_ofNotes,
    Listing.fragments_ofFragments, List.nil_append, makerFragments]

end FunctionPlan

namespace ClassPlan

/-- The fragments of a class. -/
def classFragments (names : NameScheme) (plan : ClassPlan) : List Fragment :=
  [.instanceLayout (names.layout plan.decl.name), .blank] ++
    plan.methods.flatMap (·.unitFragments names) ++
    plan.maker.toList.flatMap (·.makerFragments names plan.decl.name) ++
    plan.localsPart names ++ plan.typePart names

theorem fragments_listing (names : NameScheme) (plan : ClassPlan) :
    (plan.listing names).fragments = plan.classFragments names := by
  cases maker : plan.maker with
  | none =>
    simp only [listing, maker, Listing.fragments_append, Listing.fragments_ofNotes,
      Listing.fragments_ofFragments, Listing.fragments_flatMap,
      FunctionPlan.fragments_listing, classFragments, Option.toList_none, List.flatMap_nil,
      List.nil_append, List.append_nil, List.append_assoc]
  | some constructor =>
    simp only [listing, maker, Listing.fragments_append, Listing.fragments_ofNotes,
      Listing.fragments_ofFragments, Listing.fragments_flatMap,
      FunctionPlan.fragments_listing, FunctionPlan.fragments_makerListing, classFragments,
      Option.toList_some, List.flatMap_cons, List.flatMap_nil, List.append_nil, List.nil_append,
      List.append_assoc]

end ClassPlan

namespace ModulePlan

/-- The fragments of a module come in this order: the opening, the functions, the classes and the
ending. -/
theorem fragments_listing (names : NameScheme) (plan : ModulePlan) :
    (plan.listing names).fragments =
      plan.opening names ++ plan.functions.flatMap (·.unitFragments names) ++
        plan.classes.flatMap (·.classFragments names) ++ plan.ending names := by
  simp only [listing, Listing.fragments_append, Listing.fragments_ofNotes,
    Listing.fragments_ofFragments, Listing.fragments_flatMap, FunctionPlan.fragments_listing,
    ClassPlan.fragments_listing, List.nil_append]

end ModulePlan

end BindingGen
