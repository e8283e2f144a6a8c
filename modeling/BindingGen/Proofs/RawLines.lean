import BindingGen.Proofs.Constructor
import BindingGen.Proofs.Layout
import Mathlib.Data.List.Infix
import Mathlib.Data.List.TakeWhile

/-!
# Lines of C that a documentation carries

A documentation text carries lines of C behind a marker. They make the body of the entry point, as
they are and in order. An entry point whose documentation carries none has a placeholder in their
place, unless it makes the instances of a class: such a one does its own work anyway.

`bodies` reads the bodies off a source, each from behind its opening to its end. `WrittenAs` says
what the body of a function must be, given only what is declared.

Results:
1. `forall₂_carries`: the carried lines are, in order, those of the lines with a marker.
2. `bodies_listing`: a source has one body for each function and method of an accepted module.
3. `feedLines_render_raw`: in a source each carried line is one line, or an empty one.
4. `rawLines_pass_through`: from documentation to source no carried line is lost, moved, cut or
   joined by something else.
-/

namespace BindingGen

open Text (LinesOf feedLines)

/-! ## From documentation texts to carried lines -/

/-- `Carries line entry`: behind the first marker of the line stands this, after blanks. -/
structure Carries (line : List Char) (entry : String) : Prop where
  marked : ∃ before blanks, FirstAt rawMarker line before (blanks ++ entry.toList) ∧
    ∀ c ∈ blanks, Text.isBlank c = true
  unblanked : ∀ c, entry.toList.head? = some c → Text.isBlank c = false

theorem carries_of_afterMarker? {line after : List Char}
    (found : afterMarker? rawMarker line = some after) :
    Carries line (String.ofList (Text.dropBlanks after)) := by
  obtain ⟨before, first⟩ := (afterMarker?_eq_some_iff (by decide)).mp found
  rw [← List.takeWhile_append_dropWhile (p := Text.isBlank) (l := after)] at first
  refine ⟨⟨before, after.takeWhile Text.isBlank, ?_, fun c => List.mem_takeWhile_imp⟩, ?_⟩
  · rwa [String.toList_ofList]
  · intro c head
    rw [String.toList_ofList, Text.dropBlanks] at head
    have stop := List.head?_dropWhile_not Text.isBlank after
    rw [head] at stop
    exact stop

/-- The carried lines are, in order, those of the lines with a marker. -/
theorem forall₂_carries (lines : List (List Char)) :
    List.Forall₂ Carries (lines.filter fun line => decide (rawMarker <:+: line))
      ((lines.filterMap (afterMarker? rawMarker)).map fun cs =>
        String.ofList (Text.dropBlanks cs)) := by
  induction lines with
  | nil => exact .nil
  | cons line lines ih =>
    cases found : afterMarker? rawMarker line with
    | none =>
      have missing := (afterMarker?_eq_none_iff (by decide)).mp found
      rwa [List.filter_cons_of_neg (by simpa using missing), List.filterMap_cons_none found]
    | some after =>
      have marked : rawMarker <:+: line := by
        by_contra missing
        rw [(afterMarker?_eq_none_iff (by decide)).mpr missing] at found
        cases found
      rw [List.filter_cons_of_pos (by simpa using marked), List.filterMap_cons_some found]
      exact .cons (carries_of_afterMarker? found) ih

/-- A line that ends before a line feed carries none. -/
theorem Carries.lineFeed_notMem {line : List Char} {entry : String} (carries : Carries line entry)
    (oneLine : '\n' ∉ line) : '\n' ∉ entry.toList := by
  obtain ⟨before, blanks, ⟨split, -⟩, -⟩ := carries.marked
  rw [split] at oneLine
  simp only [List.mem_append, not_or] at oneLine
  exact oneLine.2.2.2

theorem lineFeed_notMem_rawLines {doc entry : String} (member : entry ∈ rawLines doc) :
    '\n' ∉ entry.toList := by
  obtain ⟨line, listed, carries⟩ :=
    exists_of_mem_right (forall₂_carries (Text.splitLines doc.toList)) member
  have oneLine := (Text.linesOf_splitLines doc.toList).lineFeed_notMem line
    (List.mem_of_mem_filter listed)
  exact carries.lineFeed_notMem oneLine

/-! ## Bodies of a source -/

/-- A body of a source: what it is called and takes, and all fragments up to its end, which is the
last of them. -/
structure Body where
  name : String
  params : EntryParams
  inside : List Fragment
  deriving DecidableEq, Repr

/-- The fragments up to the end of a body, with it. -/
def throughClose : List Fragment → List Fragment
  | [] => []
  | .blockClose :: _ => [.blockClose]
  | fragment :: rest => fragment :: throughClose rest

/-- The bodies of a source in order. -/
def bodies : List Fragment → List Body
  | [] => []
  | .entryOpen name params :: rest => ⟨name, params, throughClose rest⟩ :: bodies rest
  | _ :: rest => bodies rest

namespace Fragment

/-- Whether a fragment is a carried line, or stands in the place of such lines. -/
def isCarried : Fragment → Bool
  | raw _ => true
  | placeholder _ => true
  | _ => false

theorem isCarried_of_isFrame (fragment : Fragment) (frame : fragment.isFrame = true) :
    fragment.isCarried = false := by
  cases fragment with
  | raw => cases frame
  | placeholder => cases frame
  | _ => rfl

theorem bodies_cons {fragment : Fragment} (other : fragment.entry? = none)
    (later : List Fragment) : bodies (fragment :: later) = bodies later := by
  cases fragment with
  | entryOpen => cases other
  | _ => rfl

theorem entry?_of_isFrame (fragment : Fragment) (frame : fragment.isFrame = true) :
    fragment.entry? = none := by
  cases fragment with
  | entryOpen => cases frame
  | _ => rfl

theorem entry?_of_kind {fragment : Fragment} (inner : fragment.kind ≠ .declaration) :
    fragment.entry? = none := by
  cases fragment with
  | entryOpen => exact absurd rfl inner
  | _ => rfl

theorem kind_of_isArgument {fragment : Fragment} (argument : fragment.isArgument = true) :
    fragment.kind ≠ .declaration := by
  cases fragment with
  | slotEnum | argTableOpen | argRow | argTableClose | argParse => simp [kind]
  | _ => cases argument

end Fragment

section Inside

variable {inside : List Fragment} (plain : ∀ fragment ∈ inside, fragment.kind ≠ .declaration)

include plain

/-- A body ends at the first end behind its opening. -/
theorem throughClose_append (later : List Fragment) :
    throughClose (inside ++ .blockClose :: later) = inside ++ [.blockClose] := by
  induction inside with
  | nil => rfl
  | cons fragment rest ih =>
    obtain ⟨first, others⟩ := List.forall_mem_cons.mp plain
    cases fragment with
    | blockClose => exact absurd rfl first
    | _ => exact congrArg (_ :: ·) (ih others)

/-- A unit has one body. -/
theorem reads_unit {text name : String} {params : EntryParams} {behind : List Fragment}
    (closed : ∀ fragment ∈ behind, fragment.entry? = none) :
    Reads bodies (.comment text :: .entryOpen name params :: (inside ++ .blockClose :: behind))
      [⟨name, params, inside ++ [.blockClose]⟩] := by
  -- Nothing behind the opening opens another body, so that this one is all there is to a unit.
  have passed : Reads bodies (inside ++ .blockClose :: behind) [] := by
    refine .skip fun fragment member => Fragment.bodies_cons ?_
    rcases List.mem_append.mp member with inner | outer
    · exact Fragment.entry?_of_kind (plain fragment inner)
    · rcases List.mem_cons.mp outer with rfl | later
      · rfl
      · exact closed fragment later
  intro later
  rw [List.cons_append, List.cons_append, bodies, bodies, passed later, List.append_assoc,
    List.cons_append, throughClose_append plain]
  · rfl
  · exact nofun

end Inside

namespace SourceUnit

variable (names : NameScheme) (unit : SourceUnit)

/-- What stands in the body of a unit before its end. -/
def inside : SourceUnit → List Fragment
  | function plan => plan.argumentFragments ++ plan.statements
  | maker className plan =>
    [.arityCheck plan.shape.min plan.shape.max plan.shape.takesKeywords,
      .allocate (names.layout className)] ++ plan.rawPart ++ [.returnValue "MP_OBJ_FROM_PTR(self)"]

/-- The body of a unit. -/
def body : Body :=
  match unit with
  | function plan => ⟨names.entry plan.decl, plan.entryParams,
      (function plan).inside names ++ [.blockClose]⟩
  | maker className plan => ⟨names.makeNew className, .makeNew,
      (maker className plan).inside names ++ [.blockClose]⟩

theorem body_inside : (unit.body names).inside = unit.inside names ++ [.blockClose] := by
  cases unit with
  | function plan => rfl
  | maker className plan => rfl

theorem kind_of_mem_inside : ∀ fragment ∈ unit.inside names, fragment.kind ≠ .declaration := by
  cases unit with
  | function plan =>
    refine List.forall_mem_append.mpr ⟨fun fragment member => ?_, fun fragment member => ?_⟩
    · exact Fragment.kind_of_isArgument (FunctionPlan.isArgument_of_mem_argumentFragments member)
    · rcases FunctionPlan.mem_statements member with ⟨-, rfl⟩ | ⟨line, rfl⟩
      · simp [Fragment.kind]
      · simp [Fragment.kind]
  | maker className plan =>
    intro fragment member
    simp only [inside, FunctionPlan.rawPart, List.mem_append, List.mem_cons, List.mem_map,
      List.not_mem_nil, or_false] at member
    rcases member with ((rfl | rfl) | ⟨line, -, rfl⟩) | rfl
    all_goals simp [Fragment.kind]

/-- A unit is a comment, a body, and fragments that neither open a body nor carry a line. -/
theorem exists_fragments_eq : ∃ behind,
    (∀ fragment ∈ behind, fragment.entry? = none ∧ fragment.isCarried = false) ∧
      unit.fragments names = .comment unit.plan.decl.signature ::
        .entryOpen (unit.body names).name (unit.body names).params ::
          (unit.inside names ++ .blockClose :: behind) := by
  cases unit with
  | function plan =>
    refine ⟨[.functionObject (names.functionObject plan.decl) (names.entry plan.decl) plan.shape,
      .blank], by simp [Fragment.entry?, Fragment.isCarried], ?_⟩
    simp [fragments, FunctionPlan.unitFragments, inside, body, SourceUnit.plan]
  | maker className plan =>
    refine ⟨[.blank], by simp [Fragment.entry?, Fragment.isCarried], ?_⟩
    simp [fragments, FunctionPlan.makerFragments, inside, body, SourceUnit.plan]

theorem reads_fragments : Reads bodies (unit.fragments names) [unit.body names] := by
  obtain ⟨behind, closed, shape⟩ := unit.exists_fragments_eq names
  have whole : unit.body names = ⟨(unit.body names).name, (unit.body names).params,
      unit.inside names ++ [.blockClose]⟩ := by rw [← body_inside]
  rw [shape, whole]
  exact reads_unit (unit.kind_of_mem_inside names) fun fragment member => (closed fragment member).1

/-- The carried lines of a unit are those of its body. -/
theorem filter_isCarried : (unit.fragments names).filter Fragment.isCarried =
    (unit.body names).inside.filter Fragment.isCarried := by
  obtain ⟨behind, closed, shape⟩ := unit.exists_fragments_eq names
  have none : behind.filter Fragment.isCarried = [] :=
    List.filter_eq_nil_iff.mpr fun fragment member =>
      Bool.eq_false_iff.mp (closed fragment member).2
  rw [shape, body_inside]
  simp [Fragment.isCarried, none]

end SourceUnit

/-! ## Bodies of declared functions -/

/-- The lines of C that the documentation of a function carries. -/
def FunctionDecl.carried (f : FunctionDecl) : List String := (f.doc.map rawLines).getD []

/-- The methods of a class as they are written, each with the class whose instances it makes. -/
def ClassDecl.written (c : ClassDecl) : List (Option String × FunctionDecl) :=
  c.registered.map (none, ·) ++ (c.methods.filter (·.isConstructor)).map (some c.name, ·)

/-- The functions and methods of a module as they are written, in the order of the file. -/
def ModuleDecl.written (m : ModuleDecl) : List (Option String × FunctionDecl) :=
  m.functions.map (none, ·) ++ m.classes.flatMap (·.written)

/-- `WrittenAs names (maker, f) body`: this is the body of `f`. After what it declares about its
arguments, a function has the lines that its documentation carries, and one placeholder if there are
none. A function that makes instances has these lines between the instance and its return. -/
inductive WrittenAs (names : NameScheme) : Option String × FunctionDecl → Body → Prop
  | lines {f : FunctionDecl} {params : EntryParams} {arguments : List Fragment} :
      (∀ fragment ∈ arguments, fragment.isArgument = true) → f.carried ≠ [] →
      WrittenAs names (none, f)
        ⟨names.entry f, params, arguments ++ f.carried.map .raw ++ [.blockClose]⟩
  | placeholder {f : FunctionDecl} {params : EntryParams} {arguments : List Fragment} :
      (∀ fragment ∈ arguments, fragment.isArgument = true) → f.carried = [] →
      WrittenAs names (none, f)
        ⟨names.entry f, params, arguments ++ [.placeholder f.qualifiedName, .blockClose]⟩
  | maker {f : FunctionDecl} {className : String} {min : Nat} {max : Option Nat}
      {keywords : Bool} :
      WrittenAs names (some className, f)
        ⟨names.makeNew className, .makeNew,
          [.arityCheck min max keywords, .allocate (names.layout className)] ++
            f.carried.map .raw ++ [.returnValue "MP_OBJ_FROM_PTR(self)", .blockClose]⟩

namespace SourceUnit

/-- A unit as a declared function, with the class whose instances it makes. -/
def written : SourceUnit → Option String × FunctionDecl
  | function plan => (none, plan.decl)
  | maker className plan => (some className, plan.decl)

theorem writtenAs (names : NameScheme) (unit : SourceUnit)
    (planned : FunctionPlan.ofDecl unit.plan.decl = .ok unit.plan) :
    WrittenAs names unit.written (unit.body names) := by
  have raw : unit.plan.raw = unit.plan.decl.carried := by
    obtain ⟨-, -, -, raw⟩ := FunctionPlan.ofDecl_eq_ok_iff.mp planned
    exact raw
  cases unit with
  | function plan =>
    have arguments : ∀ fragment ∈ plan.argumentFragments, fragment.isArgument = true :=
      fun _ => FunctionPlan.isArgument_of_mem_argumentFragments
    change plan.raw = plan.decl.carried at raw
    rw [written, body, inside, FunctionPlan.statements, FunctionPlan.rawPart, raw]
    split
    · next none =>
      rw [List.append_assoc]
      exact .placeholder arguments (List.isEmpty_iff.mp none)
    · next some => exact .lines arguments fun none => some (List.isEmpty_iff.mpr none)
  | maker className plan =>
    change plan.raw = plan.decl.carried at raw
    rw [written, body, inside, FunctionPlan.rawPart, raw, List.append_assoc]
    exact .maker

end SourceUnit

theorem ClassPlan.units_map_written {c : ClassDecl} {plan : ClassPlan}
    (planned : ofDecl c = .ok plan) (single : c.constructors.length ≤ 1) :
    plan.units.map SourceUnit.written = c.written := by
  have decl := (ofDecl_eq_ok_iff.mp planned).1
  rw [ClassDecl.written, ← methods_map_decl planned, ← maker_map_decl planned single, units,
    List.map_append, List.map_map, List.map_map, List.map_map, List.map_map, ← decl]
  rfl

namespace ModulePlan

variable {m : ModuleDecl} {plan : ModulePlan}

theorem units_map_written (planned : ofDecl m = .ok plan)
    (single : ∀ c ∈ m.classes, c.constructors.length ≤ 1) :
    plan.units.map SourceUnit.written = m.written := by
  obtain ⟨-, functions, classes⟩ := ofDecl_eq_ok_iff.mp planned
  have inFunctions : (plan.functions.map SourceUnit.function).map SourceUnit.written =
      m.functions.map (none, ·) := by
    rw [← FunctionPlan.map_decl_of_planned functions, List.map_map, List.map_map]
    rfl
  have inClasses : (plan.classes.flatMap (·.units)).map SourceUnit.written =
      m.classes.flatMap (·.written) := by
    rw [List.map_flatMap]
    exact flatMap_eq_of_forall₂ classes fun c declared p found =>
      ClassPlan.units_map_written found (single c declared)
  rw [units, List.map_append, inFunctions, inClasses, ModuleDecl.written]

/-- The bodies of a source are those of its units. -/
theorem bodies_listing (names : NameScheme) (plan : ModulePlan) :
    bodies (plan.listing names).fragments = plan.units.map (·.body names) := by
  have passed : ∀ fragment : Fragment, fragment.isFrame = true →
      ∀ later, bodies (fragment :: later) = bodies later :=
    fun fragment frame => Fragment.bodies_cons (fragment.entry?_of_isFrame frame)
  rw [(reads_listing passed fun unit _ => unit.reads_fragments names).eq rfl]
  exact List.map_eq_flatMap.symm

/-- Each function and method of an accepted module has its body in the source. -/
theorem writtenAs_bodies (names : NameScheme) (accepted : ofValid m = .ok plan) :
    List.Forall₂ (WrittenAs names) m.adopt.written (bodies (plan.listing names).fragments) := by
  obtain ⟨valid, planned⟩ := ofValid_eq_ok_iff.mp accepted
  rw [← units_map_written planned fun c => ModuleDecl.constructors_le_one_of_validate valid,
    bodies_listing, List.forall₂_map_left_iff, List.forall₂_map_right_iff, List.forall₂_same]
  exact fun unit member => unit.writtenAs names (unit_of_mem planned member).1

/-- Outside of bodies no line is carried, and nothing stands in the place of one. -/
theorem filter_isCarried_listing (names : NameScheme) (plan : ModulePlan) :
    (plan.listing names).fragments.filter Fragment.isCarried =
      (bodies (plan.listing names).fragments).flatMap (·.inside.filter Fragment.isCarried) := by
  rw [filter_listing Fragment.isCarried_of_isFrame, bodies_listing, List.flatMap_map]
  simp only [SourceUnit.filter_isCarried]

end ModulePlan

/-! ## Carried lines in a rendering -/

open Layout (indented)

/-- The line of a source for a carried one: it stands at the depth of a statement, and an empty one
is an empty line. -/
def carriedLine (width : Nat) (entry : String) : List Char :=
  if entry = "" then [] else List.replicate width ' ' ++ entry.toList

theorem feedLines_shownLine {width : Nat} {entry : String} (oneLine : '\n' ∉ entry.toList) :
    feedLines (Layout.shownLine width 1 entry) = [carriedLine width entry] := by
  unfold Layout.shownLine carriedLine
  split
  · rfl
  · have chars : (Fragment.spaces (1 * width) ++ entry).toList =
        List.replicate width ' ' ++ entry.toList := by
      simp [Fragment.spaces]
    rw [Text.feedLines_of_oneLine, chars]
    rw [chars, List.mem_append, not_or]
    exact ⟨fun blank => absurd (List.eq_of_mem_replicate blank) (by decide), oneLine⟩

/-- In a source each carried line is one line, whatever stands around it. -/
theorem feedLines_render_raw (width : Nat) (before after : List Fragment) {entries : List String}
    (oneLine : ∀ entry ∈ entries, '\n' ∉ entry.toList) :
    feedLines ((indented width).render (before ++ entries.map .raw ++ after)) =
      (feedLines ((indented width).render before)).dropLast ++
        entries.map (carriedLine width) ++ feedLines ((indented width).render after) := by
  have carried : (entries.map Fragment.raw).flatMap (Layout.shownLines width) =
      entries.map (Layout.shownLine width 1) := by
    rw [List.flatMap_map, List.map_eq_flatMap]
    rfl
  have alone : (entries.map (Layout.shownLine width 1)).flatMap feedLines =
      entries.map (carriedLine width) := by
    rw [List.flatMap_map, List.map_eq_flatMap]
    exact List.flatMap_congr fun entry member => feedLines_shownLine (oneLine entry member)
  have front := Text.feedLines_join (before.flatMap (Layout.shownLines width)) ""
  rw [String.append_empty, ← Layout.render_indented, Text.feedLines_empty] at front
  rw [Layout.render_append, Layout.render_append, front, List.dropLast_concat,
    Layout.render_indented, Layout.render_indented, carried, String.append_assoc,
    Text.feedLines_join, Text.feedLines_join, alone, List.append_assoc]

/-! ## From documentation to source -/

/-- What documentations carry is written in full, in order and nowhere else. A text has one
decomposition into lines, its carried lines are those of its lines with a marker, and none holds a
line feed. In an accepted module the
body of each function has exactly the lines that its documentation carries, or one placeholder if
there are none; a function that makes instances has them between the instance and its return, and
never a placeholder. In a rendering each is one line at the depth of a statement, or an empty line
if it is empty. -/
theorem ModulePlan.rawLines_pass_through {m : ModuleDecl} {plan : ModulePlan} (names : NameScheme)
    (accepted : ofValid m = .ok plan) :
    (∀ doc : String, (∀ entry ∈ rawLines doc, '\n' ∉ entry.toList) ∧
        ∃ lines, (∀ parted, LinesOf doc.toList parted ↔ parted = lines) ∧
          List.Forall₂ Carries (lines.filter fun line => decide (rawMarker <:+: line))
            (rawLines doc)) ∧
      List.Forall₂ (WrittenAs names) m.adopt.written (bodies (plan.listing names).fragments) ∧
      (plan.listing names).fragments.filter Fragment.isCarried =
        (bodies (plan.listing names).fragments).flatMap (·.inside.filter Fragment.isCarried) ∧
      ∀ (doc : String) (width : Nat) (before after : List Fragment),
        feedLines ((indented width).render (before ++ (rawLines doc).map .raw ++ after)) =
          (feedLines ((indented width).render before)).dropLast ++
            (rawLines doc).map (carriedLine width) ++
            feedLines ((indented width).render after) := by
  refine ⟨fun doc => ⟨fun entry => lineFeed_notMem_rawLines, Text.splitLines doc.toList, ?_,
      forall₂_carries _⟩, writtenAs_bodies names accepted, filter_isCarried_listing names plan,
    fun doc width before after => ?_⟩
  · exact fun parted => Text.linesOf_iff.trans eq_comm
  · exact feedLines_render_raw width before after fun entry => lineFeed_notMem_rawLines

/-- A function of this documentation. -/
def documented (name : String) (owner doc : Option String) : FunctionDecl :=
  ⟨name, owner, [], false, false, doc, none⟩

/-- Here a line carries one that holds the marker again, and another carries an empty one. -/
def carrierDoc : String := "a\r\n b @c: x = 1;@c:\n@c:"

/-- A module with a function of this documentation, one without, and a constructor. -/
def carrierModule : ModuleDecl :=
  ⟨"m", none, none, [documented "f" none (some carrierDoc), documented "g" none none],
    [⟨"C", [{ documented constructorName none (some "@c:y();") with params := [receiver] }]⟩]⟩

/-- The plan of `carrierModule`. -/
def carrierPlan : ModulePlan where
  decl := carrierModule.adopt
  functions := [⟨documented "f" none (some carrierDoc), .fixed 0, [], ["x = 1;@c:", ""]⟩,
    ⟨documented "g" none none, .fixed 0, [], []⟩]
  classes := [{
    decl := ⟨"C",
      [{ documented constructorName (some "C") (some "@c:y();") with params := [receiver] }]⟩
    maker := some ⟨
      { documented constructorName (some "C") (some "@c:y();") with params := [receiver] },
      .fixed 0, [⟨receiver, .object⟩], ["y();"]⟩
    methods := [] }]

theorem carrierModule_passes_through :
    ModulePlan.ofValid carrierModule = .ok carrierPlan ∧
      List.Forall₂ (WrittenAs ⟨"m"⟩) carrierModule.adopt.written
        (bodies (carrierPlan.listing ⟨"m"⟩).fragments) ∧
      (carrierPlan.listing ⟨"m"⟩).fragments.filter Fragment.isCarried =
        [.raw "x = 1;@c:", .raw "", .placeholder "g", .raw "y();"] := by
  have accepted : ModulePlan.ofValid carrierModule = .ok carrierPlan := rfl
  obtain ⟨-, written, nowhereElse, -⟩ := ModulePlan.rawLines_pass_through ⟨"m"⟩ accepted
  exact ⟨accepted, written, by rw [nowhereElse]; rfl⟩

end BindingGen
