import BindingGen.Artifact
import BindingGen.Proofs.ArgOrder
import BindingGen.Proofs.Definition
import BindingGen.Proofs.Initializer

/-!
# Warnings of a run

A run tells a lot about its steps and warns of one thing: that a row of an argument table has the
null pointer in the place of a default. A reader who sees warnings only should see each such row
once, and nothing else.

`Tabulates part slots` says of a part of a listing that it has the rows of these slots and as many
warnings as defaults are lost in them, so that rows and warnings are counted part by part.

Results:
1. `ArgSlot.tabulates`: a row comes with a warning if and only if its default is lost.
2. `ModulePlan.tabulates`: so do all rows of a planned module.
3. `defaults_kept_or_reported`: no default is lost in silence, and the warnings of a run are as many
   as the rows in which one is lost.
-/

namespace BindingGen

/-! ## Warnings -/

/-- Whether a note is a warning. -/
def Note.isWarning (note : Note) : Bool := note.level == .warn

theorem Note.mem_untilFailure {α ε β : Type} {step : α → Except ε β} {notes : α → List Note}
    {as : List α} {note : Note} (member : note ∈ untilFailure step notes as) :
    ∃ a ∈ as, note ∈ notes a := by
  induction as with
  | nil => cases member
  | cons a as ih =>
    rw [untilFailure] at member
    split at member
    · rcases List.mem_append.mp member with first | later
      · exact ⟨a, List.mem_cons_self, first⟩
      · obtain ⟨b, inRest, found⟩ := ih later
        exact ⟨b, List.mem_cons_of_mem a inRest, found⟩
    · exact ⟨a, List.mem_cons_self, member⟩

/-- Planning a function warns of nothing. -/
theorem FunctionPlan.not_isWarning_notes {f : FunctionDecl} {note : Note}
    (member : note ∈ notes f) : note.isWarning = false := by
  unfold notes at member
  rcases List.mem_cons.mp member with rfl | finished
  · rfl
  · split at finished
    · obtain rfl := List.mem_singleton.mp finished
      rfl
    · cases finished

/-- Planning a module warns of nothing. -/
theorem ModulePlan.not_isWarning_notes {m : ModuleDecl} {note : Note} (member : note ∈ notes m) :
    note.isWarning = false := by
  unfold notes at member
  rcases List.mem_append.mp member with inFunctions | inClasses
  · obtain ⟨f, -, found⟩ := Note.mem_untilFailure inFunctions
    exact FunctionPlan.not_isWarning_notes found
  · split at inClasses
    · obtain ⟨c, -, inClass⟩ := Note.mem_untilFailure inClasses
      obtain ⟨f, -, found⟩ := Note.mem_untilFailure inClass
      exact FunctionPlan.not_isWarning_notes found
    · cases inClasses

namespace Listing

/-- The notes of a listing without those of the collector. -/
def ownNotes (listing : Listing) : List Note :=
  listing.filterMap fun
    | .note note => some note
    | .fragment _ => none

theorem ownNotes_append (a b : Listing) : ownNotes (a ++ b) = a.ownNotes ++ b.ownNotes :=
  List.filterMap_append

theorem ownNotes_ofNotes (notes : List Note) : (ofNotes notes).ownNotes = notes := by
  induction notes with
  | nil => rfl
  | cons note rest ih => exact congrArg (note :: ·) ih

theorem ownNotes_ofFragments (fragments : List Fragment) :
    (ofFragments fragments).ownNotes = [] := by
  induction fragments with
  | nil => rfl
  | cons fragment rest ih => exact ih

/-- The collector warns of nothing. -/
theorem countP_notesFrom (collector : Collector) (listing : Listing) :
    (notesFrom collector listing).countP Note.isWarning =
      listing.ownNotes.countP Note.isWarning := by
  induction listing generalizing collector with
  | nil => rfl
  | cons item rest ih =>
    cases item with
    | note note =>
      rw [notesFrom, List.countP_cons, ih]
      exact List.countP_cons.symm
    | fragment fragment =>
      have silent : (collector.notes (collector.observe fragment)).countP Note.isWarning = 0 := by
        rw [Collector.notes, List.countP_map]
        exact List.countP_eq_zero.mpr fun _ _ => Bool.false_ne_true
      rw [notesFrom, List.countP_append, silent, Nat.zero_add, ih]
      rfl

end Listing

/-! ## Rows and their warnings -/

/-- Whether the row of a parameter has the null pointer in the place of its default. -/
def Parameter.isLostIn (p : Parameter) (row : ArgRow) : Bool :=
  p.default.any (· != .none) && row.initializer == some Initializer.nullText

/-- `Tabulates part slots`: a part of a listing has the rows of these slots, and as many warnings as
there are rows in which a default is lost. -/
structure Tabulates (part : Listing) (slots : List ArgSlot) : Prop where
  rows : part.fragments.filterMap Fragment.argRow? = slots.map (·.row)
  warnings : part.ownNotes.countP Note.isWarning =
    slots.countP fun slot => slot.param.isLostIn slot.row

namespace Tabulates

theorem append {a b : Listing} {first second : List ArgSlot} (left : Tabulates a first)
    (right : Tabulates b second) : Tabulates (a ++ b) (first ++ second) where
  rows := by
    rw [Listing.fragments_append, List.filterMap_append, left.rows, right.rows, List.map_append]
  warnings := by
    rw [Listing.ownNotes_append, List.countP_append, left.warnings, right.warnings,
      List.countP_append]

theorem flatMap {α : Type} {f : α → Listing} {slots : α → List ArgSlot}
    (each : ∀ a, Tabulates (f a) (slots a)) (as : List α) :
    Tabulates (as.flatMap f) (as.flatMap slots) := by
  induction as with
  | nil => exact ⟨rfl, rfl⟩
  | cons a as ih => exact (each a).append ih

/-- Fragments that are no rows. -/
theorem ofFragments {fragments : List Fragment}
    (others : ∀ fragment ∈ fragments, fragment.argRow? = none) :
    Tabulates (.ofFragments fragments) [] where
  rows := by
    rw [Listing.fragments_ofFragments]
    exact List.filterMap_eq_nil_iff.mpr others
  warnings := by rw [Listing.ownNotes_ofFragments]; rfl

/-- A note that is no warning, and fragments that are no rows. -/
theorem noted {note : Note} {fragments : List Fragment} (silent : note.isWarning = false)
    (others : ∀ fragment ∈ fragments, fragment.argRow? = none) :
    Tabulates (.ofNotes [note] ++ .ofFragments fragments) [] := by
  have told : Tabulates (.ofNotes [note]) [] := ⟨rfl, by
    rw [Listing.ownNotes_ofNotes, List.countP_singleton, silent]
    rfl⟩
  exact told.append (ofFragments others)

end Tabulates

namespace ArgSlot

/-- The notes of a row are one warning if its default is lost, and none otherwise. -/
theorem countP_notes (slot : ArgSlot) :
    slot.notes.countP Note.isWarning = if slot.param.isLostIn slot.row then 1 else 0 := by
  rw [notes, Parameter.isLostIn, row]
  cases slot.param.default with
  | none => rfl
  | some value =>
    have lost : ((some value).any (· != .none) &&
        (some value).map (fun value => (value.initializer slot.kind).text) ==
          some Initializer.nullText) = true ↔
        value ≠ .none ∧ value.initializer slot.kind = .null := by
      simp [Initializer.text_eq_nullText_iff]
    simp only [lost]
    -- A default is kept, or it is `None`, or it is lost.
    obtain ⟨denotes, silent⟩ | ⟨null, -, ⟨rfl, silent⟩ | ⟨given, note, reported, warns⟩⟩ :=
      value.denotes_or_null slot.kind
    · rw [silent, if_neg]
      · rfl
      · rintro ⟨-, null⟩
        rw [null] at denotes
        cases denotes
    · rw [silent, if_neg fun absent => absent.1 rfl]
      rfl
    · rw [reported, if_pos ⟨given, null⟩, List.countP_singleton, Note.isWarning, warns]
      rfl

/-- A row comes with a warning if and only if its default is lost. -/
theorem tabulates (slot : ArgSlot) : Tabulates slot.listing [slot] where
  rows := by
    rw [listing, Listing.fragments_append, Listing.fragments_ofNotes,
      Listing.fragments_ofFragments]
    rfl
  warnings := by
    rw [listing, Listing.ownNotes_append, Listing.ownNotes_ofNotes, Listing.ownNotes_ofFragments,
      List.append_nil, countP_notes, List.countP_singleton]

end ArgSlot

namespace FunctionPlan

variable (plan : FunctionPlan)

/-- The slots of a function that has an argument table. -/
def tabled : List ArgSlot := if plan.shape.hasArgTable then plan.args else []

theorem argRow?_of_mem_slotEnum : ∀ fragment ∈ plan.slotEnum, fragment.argRow? = none := by
  intro fragment member
  rw [mem_slotEnum member]
  rfl

theorem tabulates_argTable : Tabulates plan.argTable plan.args := by
  unfold argTable
  split
  · next none =>
    rw [List.isEmpty_iff.mp none]
    exact ⟨rfl, rfl⟩
  · have opening : Tabulates (.ofFragments (plan.slotEnum ++ [.argTableOpen])) [] :=
      .ofFragments (List.forall_mem_append.mpr
        ⟨plan.argRow?_of_mem_slotEnum, by simp [Fragment.argRow?]⟩)
    have rows : Tabulates (plan.args.flatMap (·.listing)) (plan.args.flatMap fun slot => [slot]) :=
      .flatMap ArgSlot.tabulates plan.args
    have closing : Tabulates
        (.ofFragments [.argTableClose, .argParse plan.shape.takesKeywords]) [] :=
      .ofFragments (by simp [Fragment.argRow?])
    have whole := (opening.append rows).append closing
    rwa [List.nil_append, List.append_nil, List.flatMap_singleton'] at whole

theorem tabulates_argPart : Tabulates plan.argPart plan.tabled := by
  unfold argPart tabled
  cases plan.shape with
  | fixed => exact ⟨rfl, rfl⟩
  | atLeast => exact .ofFragments plan.argRow?_of_mem_slotEnum
  | between | keyword => exact plan.tabulates_argTable

theorem tabulates_listing (names : NameScheme) :
    Tabulates (plan.listing names) plan.tabled := by
  have ending : ∀ fragment ∈ plan.statements ++
      [.blockClose, .functionObject (names.functionObject plan.decl) (names.entry plan.decl)
        plan.shape, .blank], fragment.argRow? = none :=
    List.forall_mem_append.mpr ⟨fun _ => argRow?_of_mem_statements, by simp [Fragment.argRow?]⟩
  have whole : Tabulates (plan.listing names) ([] ++ plan.tabled ++ []) :=
    ((Tabulates.noted rfl (by simp [Fragment.argRow?])).append plan.tabulates_argPart).append
      (.ofFragments ending)
  rwa [List.nil_append, List.append_nil] at whole

theorem tabulates_makerListing (names : NameScheme) (className : String) :
    Tabulates (plan.makerListing names className) [] := by
  refine .noted rfl fun fragment member => ?_
  simp only [rawPart, List.mem_append, List.mem_cons, List.mem_map, List.not_mem_nil,
    or_false] at member
  rcases member with ((rfl | rfl | rfl | rfl) | ⟨line, -, rfl⟩) | rfl | rfl | rfl
  all_goals rfl

end FunctionPlan

theorem argRow?_of_isFrame {fragment : Fragment} (frame : fragment.isFrame = true) :
    fragment.argRow? = none := by
  cases fragment with
  | argRow => cases frame
  | _ => rfl

namespace ClassPlan

theorem tabulates_listing (names : NameScheme) (plan : ClassPlan) :
    Tabulates (plan.listing names) (plan.methods.flatMap (·.tabled)) := by
  have opening : ∀ fragment ∈ [Fragment.instanceLayout (names.layout plan.decl.name), .blank],
      fragment.argRow? = none := by simp [Fragment.argRow?]
  have methods : Tabulates (plan.methods.flatMap (·.listing names))
      (plan.methods.flatMap (·.tabled)) := .flatMap (fun p => p.tabulates_listing names) _
  have ending : Tabulates (.ofFragments (plan.localsPart names ++ plan.typePart names)) [] :=
    .ofFragments fun fragment member =>
      argRow?_of_isFrame (plan.isFrame_closing names fragment member)
  have slots : plan.methods.flatMap (·.tabled) =
      [] ++ plan.methods.flatMap (·.tabled) ++ [] ++ [] := by
    rw [List.nil_append, List.append_nil, List.append_nil]
  rw [slots, listing]
  cases plan.maker with
  | none => exact (((Tabulates.noted rfl opening).append methods).append ⟨rfl, rfl⟩).append ending
  | some maker =>
    exact (((Tabulates.noted rfl opening).append methods).append
      (maker.tabulates_makerListing names plan.decl.name)).append ending

end ClassPlan

namespace ModulePlan

/-- The slots of the functions of a module that have an argument table. -/
def tabled (plan : ModulePlan) : List ArgSlot :=
  plan.functions.flatMap (·.tabled) ++ plan.classes.flatMap (·.methods.flatMap (·.tabled))

theorem tabulates_listing (names : NameScheme) (plan : ModulePlan) :
    Tabulates (plan.listing names) plan.tabled := by
  have functions : Tabulates (plan.functions.flatMap (·.listing names))
      (plan.functions.flatMap (·.tabled)) := .flatMap (fun p => p.tabulates_listing names) _
  have classes : Tabulates (plan.classes.flatMap (·.listing names))
      (plan.classes.flatMap (·.methods.flatMap (·.tabled))) :=
    .flatMap (fun c => c.tabulates_listing names) _
  have opening : ∀ fragment ∈ plan.opening names, fragment.argRow? = none :=
    fun fragment member => argRow?_of_isFrame (plan.isFrame_opening names fragment member)
  have ending : ∀ fragment ∈ plan.ending names, fragment.argRow? = none :=
    fun fragment member => argRow?_of_isFrame (plan.isFrame_ending names fragment member)
  have whole : Tabulates (plan.listing names)
      ([] ++ plan.functions.flatMap (·.tabled) ++
        plan.classes.flatMap (·.methods.flatMap (·.tabled)) ++ []) :=
    (((Tabulates.noted rfl opening).append functions).append classes).append (.ofFragments ending)
  rwa [List.nil_append, List.append_nil] at whole

end ModulePlan

/-! ## Declared parameters and their rows -/

/-- The parameters that a function describes in an argument table, each with the function. -/
def FunctionDecl.tabled (f : FunctionDecl) : List (FunctionDecl × Parameter) :=
  match f.callShape with
  | .ok shape => if shape.hasArgTable then f.params.map (f, ·) else []
  | .error _ => []

/-- The parameters that a module describes in argument tables, in the order of the file. -/
def ModuleDecl.tabled (m : ModuleDecl) : List (FunctionDecl × Parameter) :=
  m.registered.flatMap (·.tabled)

/-- `SlotOf declared slot`: the slot is that of a declared parameter, and its row says what is
declared. -/
structure SlotOf (declared : FunctionDecl × Parameter) (slot : ArgSlot) : Prop where
  param : slot.param = declared.2
  row : RowOf declared.1 declared.2 slot.row

theorem FunctionPlan.slotOf_tabled {f : FunctionDecl} {plan : FunctionPlan}
    (planned : ofDecl f = .ok plan) : List.Forall₂ SlotOf f.tabled plan.tabled := by
  obtain ⟨-, shaped, slots, -⟩ := ofDecl_eq_ok_iff.mp planned
  rw [FunctionDecl.tabled, tabled, shaped]
  dsimp only
  split
  · rw [List.forall₂_map_left_iff]
    refine slots.imp fun p slot resolved => ?_
    obtain ⟨rfl, kind⟩ := slot_eq_ok_iff.mp resolved
    exact ⟨rfl, rfl, rfl, rfl, kind, rfl⟩
  · exact .nil

theorem ClassPlan.planned_methods {c : ClassDecl} {plan : ClassPlan}
    (planned : ofDecl c = .ok plan) :
    List.Forall₂ (fun f p => FunctionPlan.ofDecl f = .ok p) c.registered plan.methods := by
  rw [← methods_map_decl planned, List.forall₂_map_left_iff, List.forall₂_same]
  intro p member
  exact (unit_of_mem planned (List.mem_append_left _ (List.mem_map_of_mem member))).1

theorem ModulePlan.slotOf_tabled {m : ModuleDecl} {plan : ModulePlan}
    (planned : ofDecl m = .ok plan) : List.Forall₂ SlotOf m.tabled plan.tabled := by
  obtain ⟨-, functions, classes⟩ := ofDecl_eq_ok_iff.mp planned
  rw [ModuleDecl.tabled, ModuleDecl.registered, List.flatMap_append, List.flatMap_assoc, tabled]
  refine List.rel_append ?_ ?_
  · exact List.rel_flatMap functions fun _ _ found => FunctionPlan.slotOf_tabled found
  · exact List.rel_flatMap classes fun _ _ found =>
      List.rel_flatMap (ClassPlan.planned_methods found) fun _ _ found =>
        FunctionPlan.slotOf_tabled found

/-! ## The warnings of a run -/

/-- What holds of a pair of a declared parameter and its row is asked of the slot. -/
theorem countP_zip_rows {declared : List (FunctionDecl × Parameter)} {slots : List ArgSlot}
    (related : List.Forall₂ SlotOf declared slots) :
    (declared.zip (slots.map (·.row))).countP (fun entry => entry.1.2.isLostIn entry.2) =
      slots.countP fun slot => slot.param.isLostIn slot.row := by
  induction related with
  | nil => rfl
  | cons first _ ih =>
    rw [List.map_cons, List.zip_cons_cons, List.countP_cons, List.countP_cons, ih, first.param]

/-- A run warns of the rows in which a default is lost, and of nothing else. -/
theorem Artifact.countP_notes {m : ModuleDecl} {plan : ModulePlan}
    (accepted : ModulePlan.ofValid m = .ok plan) :
    (notes m).countP Note.isWarning =
      plan.tabled.countP fun slot => slot.param.isLostIn slot.row := by
  obtain ⟨valid, planned⟩ := ModulePlan.ofValid_eq_ok_iff.mp accepted
  have planning : (ModulePlan.notes m.adopt).countP Note.isWarning = 0 :=
    List.countP_eq_zero.mpr fun _ member =>
      Bool.eq_false_iff.mp (ModulePlan.not_isWarning_notes member)
  rw [notes, valid, planned]
  dsimp only
  rw [planNotes, List.countP_append, List.countP_append, planning, Nat.zero_add, Listing.notes,
    Listing.countP_notesFrom, (plan.tabulates_listing _).warnings]
  rfl

/-- No default of an argument table is lost in silence. What the text of a default spells is written
as one initializer in braces, which denotes it or is the null pointer; only `None` is the null
pointer without a warning, and an integer that is asked for as a number or an object can be read
back. In an accepted module the rows of argument tables are those of the parameters to be
described, in order, and a run has as many warnings as there are rows in which a default other than
`None` has the null pointer. -/
theorem defaults_kept_or_reported {m : ModuleDecl} {plan : ModulePlan}
    (accepted : ModulePlan.ofValid m = .ok plan) :
    (∀ (text : String) (kind : ArgKind),
        Initializer.Braced ((Literal.ofText text).initializer kind).text ∧
          ((Literal.ofText text).Kept kind ∨ (Literal.ofText text).Nulled kind) ∧
          ∀ n, Literal.ofText text = .int n → Literal.InRange n ∧
            (kind = .integer →
              Initializer.read? ((Literal.ofText text).initializer kind).text = some (.int n)) ∧
            (kind.isObject = true →
              Initializer.read? ((Literal.ofText text).initializer kind).text =
                some (.intObject n))) ∧
      let rows := (plan.listing ⟨m.name⟩).fragments.filterMap Fragment.argRow?
      List.Forall₂ (fun declared row => RowOf declared.1 declared.2 row) m.adopt.tabled rows ∧
        (Artifact.notes m).countP Note.isWarning =
          (m.adopt.tabled.zip rows).countP fun entry => entry.1.2.isLostIn entry.2 := by
  obtain ⟨-, planned⟩ := ModulePlan.ofValid_eq_ok_iff.mp accepted
  have related := ModulePlan.slotOf_tabled planned
  refine ⟨Literal.kept_or_nulled, ?_⟩
  rw [(plan.tabulates_listing ⟨m.name⟩).rows]
  refine ⟨?_, ?_⟩
  · rw [List.forall₂_map_right_iff]
    exact related.imp fun _ _ held => held.row
  · rw [Artifact.countP_notes accepted, countP_zip_rows related]

/-- A function with three defaults: one that is kept, one that is lost and `None`. -/
def lossyFunction : FunctionDecl where
  name := "f"
  owner := none
  params := [⟨"a", .positional, some (.int 5), some "int"⟩,
    ⟨"b", .positional, some (.str "not a name"), none⟩, ⟨"c", .positional, some .none, none⟩]
  varargs := false
  varkw := false
  doc := none
  returns := none

/-- A module that holds `lossyFunction`. -/
def lossyModule : ModuleDecl := ⟨"m", none, none, [lossyFunction], []⟩

/-- The plan of `lossyModule`. -/
def lossyPlan : ModulePlan :=
  ⟨lossyModule, [⟨lossyFunction, .between 0 3,
    [⟨⟨"a", .positional, some (.int 5), some "int"⟩, .integer⟩,
      ⟨⟨"b", .positional, some (.str "not a name"), none⟩, .object⟩,
      ⟨⟨"c", .positional, some .none, none⟩, .object⟩], []⟩], []⟩

/-- The module is accepted with one warning, though two rows have the null pointer. -/
theorem lossyModule_warns_once :
    ModulePlan.ofValid lossyModule = .ok lossyPlan ∧
      ((lossyPlan.listing ⟨"m"⟩).fragments.filterMap Fragment.argRow?).map (·.initializer) =
        [some "\x7b .u_int = 5 \x7d", some Initializer.nullText, some Initializer.nullText] ∧
      (Artifact.notes lossyModule).countP Note.isWarning = 1 ∧
      Literal.ofText " +5 " = .int 5 ∧
      Initializer.read? ((Literal.ofText " +5 ").initializer .integer).text = some (.int 5) := by
  have accepted : ModulePlan.ofValid lossyModule = .ok lossyPlan := rfl
  have spelled : Literal.ofText " +5 " = .int 5 := by decide +kernel
  obtain ⟨written, -, warnings⟩ := defaults_kept_or_reported accepted
  refine ⟨accepted, by decide +kernel, ?_, spelled, ?_⟩
  · rw [warnings]
    decide +kernel
  · exact ((written " +5 " .integer).2.2 5 spelled).2.1 rfl

end BindingGen
