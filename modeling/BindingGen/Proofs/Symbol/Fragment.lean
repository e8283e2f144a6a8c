import BindingGen.Proofs.Confinement
import BindingGen.Proofs.Symbol.Pieces

/-!
# What a fragment refers to

A fragment is fixed pieces of C with names, numbers and texts in between. Behind the marker it puts
names of its own, which it interns; a text that it inserts may hold the marker as well. The fixed
pieces hold no marker and keep the inserted texts apart, so that nothing else is referred to.

1. `references_initializer`: an initializer interns the string that it is made from.
2. `Fragment.refersExactly`: a fragment refers to what it interns, to what its inserted texts refer
   to, and to nothing else.
-/

namespace BindingGen

open scoped List
open Text (isIdentifier)
open BindingGen.Symbol (Unmarked references_head references_tail references_gap references_fixed
  references_of_unmarked references_interned references_commas)

/-! ## What a fragment inserts -/

namespace Fragment

/-- The strings that a fragment puts behind the marker, in order. -/
def interned : Fragment → List String
  | argRow row => row.name :: row.initializer.toList.flatMap Symbol.references
  | mapEntry key (.pointer _) => [key]
  | mapEntry key (.string name) => [key, name]
  | typeDefine _ className _ _ => [className]
  | register module _ _ => [module]
  | _ => []

/-- The texts that a fragment inserts beside what it interns, as often as it does: lines of
comments, lines of C that a documentation carries, texts of placeholders, conditions and names. -/
def inserted : Fragment → List String
  | header module author year => (headerLines module author year).map (·.text)
  | ifOpen condition => [condition]
  | ifClose condition => [condition]
  | comment text => ["// " ++ lineCommentText text]
  | entryOpen name _ => [name]
  | slotEnum slots => slots
  | allocate layout => [layout, layout]
  | placeholder what => [what]
  | raw line => [line]
  | functionObject object entry _ => [object, entry]
  | instanceLayout name => [name, name]
  | mapOpen name => [name]
  | mapEntry _ (.pointer target) => [target]
  | dictDefine name table => [name, table]
  | typeDefine name _ makeNew locals => name :: makeNew.toList ++ locals.toList
  | moduleDefine name globals => [name, globals]
  | register _ object condition => [object, condition]
  | _ => []

/-- The names of the parameters that a fragment declares one by one. -/
def paramNames : Fragment → List String
  | entryOpen _ (.fixed names) => names
  | _ => []

/-- A fragment refers to what it interns, to what the texts that it inserts refer to, and to
nothing else. -/
def RefersExactly (fragment : Fragment) : Prop :=
  fragment.references ~
    fragment.interned ++ (fragment.inserted ++ fragment.paramNames).flatMap Symbol.references

/-- A fragment puts identifiers behind the marker, and it includes and returns what every source
does. -/
def Regular : Fragment → Prop
  | includeFile file => file ∈ ModulePlan.includedFiles
  | returnValue value => value = "MP_OBJ_FROM_PTR(self)"
  | argRow row => isIdentifier row.name = true
  | mapEntry key (.pointer _) => isIdentifier key = true
  | mapEntry key (.string name) => isIdentifier key = true ∧ isIdentifier name = true
  | typeDefine _ className _ _ => isIdentifier className = true
  | register module _ _ => isIdentifier module = true
  | _ => True

end Fragment

/-! ## The lines of a fragment -/

theorem references_int (n : Int) : Symbol.references (toString n) = [] := by
  obtain ⟨digits, -, all, written⟩ := isDecimal_int n
  refine references_of_unmarked (Symbol.unmarked_of_notMem (c := 'Q') (by decide) fun member => ?_)
  have found : 'Q' ∈ digits := by
    rcases written with plain | signed
    · rwa [plain] at member
    · rw [signed] at member
      exact (List.mem_cons.mp member).resolve_left (by decide)
  exact absurd (all _ found) (by decide)

theorem references_nat (n : Nat) : Symbol.references (toString n) = [] := references_int n

/-- The head of a registration goes over into a number. -/
theorem references_fixedHead (count : Nat) :
    Symbol.references ("static MP_DEFINE_CONST_FUN_OBJ_" ++ toString count) = [] := by
  refine references_of_unmarked (Symbol.unmarked_of_notMem (c := 'Q') (by decide) fun member => ?_)
  rcases List.mem_append.mp (String.toList_append ▸ member) with inHead | inNumber
  · exact absurd inHead (by decide)
  · have digit : 'Q'.isDigit = true := Decimal.areDigits_toDigits count _ (by
      rwa [← Nat.toList_repr])
    exact absurd digit (by decide)

theorem references_registration (object entry : String) (shape : CallShape) :
    Symbol.references (shape.registration object entry) =
      Symbol.references object ++ Symbol.references entry := by
  cases shape with
  | fixed count =>
    dsimp only [CallShape.registration]
    rw [references_tail rfl (by decide), references_gap rfl (by decide),
      references_gap rfl (by decide), references_fixedHead, List.nil_append]
  | between least most =>
    dsimp only [CallShape.registration]
    rw [references_tail rfl (by decide), references_gap rfl (by decide),
      references_gap rfl (by decide), references_gap rfl (by decide),
      references_head rfl (by decide), references_nat, references_nat, List.append_nil,
      List.append_nil]
  | atLeast least =>
    dsimp only [CallShape.registration]
    rw [references_tail rfl (by decide), references_gap rfl (by decide),
      references_gap rfl (by decide), references_head rfl (by decide), references_nat,
      List.append_nil]
  | keyword least =>
    dsimp only [CallShape.registration]
    rw [references_tail rfl (by decide), references_gap rfl (by decide),
      references_gap rfl (by decide), references_head rfl (by decide), references_nat,
      List.append_nil]

theorem references_entryParams (name : String) (params : EntryParams) :
    Symbol.references params.text =
      (Fragment.entryOpen name params).paramNames.flatMap Symbol.references := by
  cases params with
  | fixed names =>
    cases names with
    | nil => exact references_fixed rfl (by decide)
    | cons first rest =>
      rw [EntryParams.text, references_commas, List.flatMap_map]
      · simp only [references_head (s := "mp_obj_t ") rfl (by decide)]
        rfl
      · nofun
  | array => exact references_fixed rfl (by decide)
  | parsedArray => exact references_fixed rfl (by decide)
  | keywordMap => exact references_fixed rfl (by decide)
  | makeNew => exact references_fixed rfl (by decide)

/-- The flags of a row of an argument table. -/
def ArgRow.flagText (row : ArgRow) : String :=
  " | ".intercalate ((if row.required then ["MP_ARG_REQUIRED"] else []) ++
    (if row.keywordOnly then ["MP_ARG_KW_ONLY"] else []) ++ [row.kind.flag])

theorem unmarked_flagText (row : ArgRow) : Unmarked row.flagText := by
  refine Symbol.unmarked_of_notMem (c := 'S') (by decide) ?_
  unfold ArgRow.flagText
  cases row.required <;> cases row.keywordOnly <;> cases row.kind <;> decide +kernel

theorem references_argRow {row : ArgRow} (named : isIdentifier row.name = true) :
    Symbol.references row.text = (Fragment.argRow row).interned := by
  have start : Symbol.references ("\x7b " ++ BindingGen.interned row.name ++ ", " ++ row.flagText) =
      [row.name] := by
    rw [references_gap rfl (by decide), references_head rfl (by decide), references_interned named,
      references_of_unmarked (unmarked_flagText row), List.append_nil]
  obtain ⟨name, required, keywordOnly, kind, initializer⟩ := row
  unfold ArgRow.text
  rw [references_tail rfl (by decide)]
  cases initializer with
  | none =>
    dsimp only
    rw [String.append_empty]
    exact start
  | some text =>
    dsimp only
    rw [← String.append_assoc, references_gap rfl (by decide)]
    refine (congrArg (· ++ Symbol.references text) start).trans ?_
    rw [Fragment.interned, Option.toList_some, List.flatMap_singleton]
    rfl

theorem references_mapValue {key : String} {value : MapValue}
    (regular : (Fragment.mapEntry key value).Regular) :
    Symbol.references value.text = match value with
      | .pointer target => Symbol.references target
      | .string name => [name] := by
  cases value with
  | pointer target =>
    dsimp only [MapValue.text]
    rw [references_tail rfl (by decide), references_head rfl (by decide)]
  | string name =>
    dsimp only [MapValue.text]
    rw [references_tail rfl (by decide), references_head rfl (by decide),
      references_interned regular.2]

theorem references_withCommas (texts : List String) :
    (Fragment.withCommas texts).flatMap Symbol.references = texts.flatMap Symbol.references := by
  induction texts using Fragment.withCommas.induct with
  | case1 => rfl
  | case2 last => rfl
  | case3 text rest more ih =>
    rw [Fragment.withCommas, List.flatMap_cons, ih, references_tail rfl (by decide),
      List.flatMap_cons]
    exact more

/-- A word leads out of this piece, but no reference begins with its last character. -/
theorem references_structTag (name : String) :
    Symbol.references ("typedef struct _" ++ name) = Symbol.references name := by
  have apart : "typedef struct _" ++ name = "typedef struct " ++ ("_" ++ name) := by
    rw [← String.append_assoc]
    rfl
  have clear : ¬ Symbol.StartsReference ('_' :: name.toList) := by
    rintro ⟨c, rest, equal, -⟩
    cases equal
  have chars : ("_" ++ name).toList = '_' :: name.toList := by
    rw [String.toList_append]
    rfl
  rw [apart, references_head rfl (by decide), Symbol.references, chars,
    Symbol.scan_cons_of_not_startsReference clear]
  rfl

namespace Fragment

theorem references_of_line {fragment : Fragment} {depth : Nat} {text : String}
    (line : fragment.lines = [⟨depth, text⟩]) : fragment.references = Symbol.references text := by
  rw [references, line, List.flatMap_singleton]

theorem references_typeDefine {name className : String} {makeNew locals : Option String}
    (regular : (typeDefine name className makeNew locals).Regular) :
    (typeDefine name className makeNew locals).references =
      Symbol.references name ++ [className] ++
        (makeNew.toList ++ locals.toList).flatMap Symbol.references := by
  have flag : Symbol.references "MP_TYPE_FLAG_NONE" = [] := references_fixed rfl (by decide)
  have first : Symbol.references "MP_DEFINE_CONST_OBJ_TYPE(" = [] :=
    references_fixed rfl (by decide)
  have last : Symbol.references ");" = [] := references_fixed rfl (by decide)
  have maker : (makeNew.map ("make_new, " ++ ·)).toList.flatMap Symbol.references =
      makeNew.toList.flatMap Symbol.references := by
    cases makeNew with
    | none => rfl
    | some entry => simp [references_head (s := "make_new, ") rfl (by decide)]
  have dict : (locals.map ("locals_dict, &" ++ ·)).toList.flatMap Symbol.references =
      locals.toList.flatMap Symbol.references := by
    cases locals with
    | none => rfl
    | some entry => simp [references_head (s := "locals_dict, &") rfl (by decide)]
  have texts := references_withCommas ([name, BindingGen.interned className, "MP_TYPE_FLAG_NONE"] ++
    (makeNew.map ("make_new, " ++ ·)).toList ++ (locals.map ("locals_dict, &" ++ ·)).toList)
  rw [references, lines, typeLines]
  simp only [List.flatMap_append, List.flatMap_cons, List.flatMap_nil, List.flatMap_map, first,
    last, flag, maker, dict, references_interned regular, List.append_nil, List.nil_append,
    List.append_assoc] at texts ⊢
  exact texts

/-- A regular fragment refers to what it interns and to what its inserted texts refer to. -/
theorem refersExactly {fragment : Fragment} (regular : fragment.Regular) :
    fragment.RefersExactly := by
  unfold RefersExactly
  cases fragment with
  | header module author year =>
    simp [references, lines, interned, inserted, paramNames, List.flatMap_map]
  | includeFile file =>
    have known : ∀ file ∈ ModulePlan.includedFiles, Unmarked ("#include \"" ++ file ++ "\"") := by
      decide +kernel
    rw [references_of_line rfl, references_of_unmarked (known file regular)]
    rfl
  | ifOpen condition =>
    rw [references_of_line rfl, references_head rfl (by decide)]
    simp [interned, inserted, paramNames]
  | ifClose condition =>
    rw [references_of_line rfl, references_head rfl (by decide)]
    simp [interned, inserted, paramNames]
  | blank => rw [references_of_line rfl, references_fixed rfl (by decide)]; rfl
  | comment text =>
    rw [references_of_line rfl]
    simp [interned, inserted, paramNames]
  | entryOpen name params =>
    rw [references_of_line rfl, references_tail rfl (by decide), references_gap rfl (by decide),
      references_head rfl (by decide), references_entryParams name]
    simp [interned, inserted]
  | slotEnum slots =>
    rw [references_of_line rfl, references_tail rfl (by decide), references_head rfl (by decide),
      references_commas]
    simp [interned, inserted, paramNames]
  | argTableOpen => rw [references_of_line rfl, references_fixed rfl (by decide)]; rfl
  | argRow row =>
    rw [references_of_line rfl, references_argRow regular]
    simp [inserted, paramNames]
  | argTableClose => rw [references_of_line rfl, references_fixed rfl (by decide)]; rfl
  | argParse keywords =>
    rw [references, lines, List.flatMap_cons, List.flatMap_singleton,
      references_fixed rfl (by decide)]
    cases keywords with
    | true => rw [if_pos rfl, references_fixed rfl (by decide +kernel)]; rfl
    | false => rw [if_neg Bool.false_ne_true, references_fixed rfl (by decide +kernel)]; rfl
  | arityCheck min max keywords =>
    have most : Symbol.references ((max.map toString).getD "MP_OBJ_FUN_ARGS_MAX") = [] := by
      cases max with
      | none => exact references_fixed rfl (by decide)
      | some most => exact references_nat most
    have flag : ∀ keywords, Unmarked (FunctionDecl.flagText keywords) := by decide +kernel
    rw [references_of_line rfl, references_tail rfl (by decide), references_gap rfl (by decide),
      references_gap rfl (by decide), references_head rfl (by decide), references_nat, most,
      references_of_unmarked (flag keywords)]
    rfl
  | allocate layout =>
    rw [references_of_line rfl, references_tail rfl (by decide), references_gap rfl (by decide)]
    simp [interned, inserted, paramNames]
  | placeholder what =>
    rw [references_of_line rfl, references_tail rfl (by decide), references_head rfl (by decide)]
    simp [interned, inserted, paramNames]
  | raw line =>
    rw [references_of_line rfl]
    simp [interned, inserted, paramNames]
  | returnValue value =>
    cases regular
    rw [references_of_line rfl, references_tail rfl (by decide), references_head rfl (by decide),
      references_fixed rfl (by decide)]
    rfl
  | blockClose => rw [references_of_line rfl, references_fixed rfl (by decide)]; rfl
  | functionObject object entry shape =>
    rw [references_of_line rfl, references_registration]
    simp [interned, inserted, paramNames]
  | instanceLayout name =>
    rw [references, lines]
    simp only [List.flatMap_cons, List.flatMap_nil]
    rw [references_tail rfl (by decide), references_structTag,
      references_fixed (s := "mp_obj_base_t base;") rfl (by decide),
      references_tail rfl (by decide), references_head rfl (by decide)]
    simp [interned, inserted, paramNames]
  | mapOpen name =>
    rw [references_of_line rfl, references_tail rfl (by decide), references_head rfl (by decide)]
    simp [interned, inserted, paramNames]
  | mapEntry key value =>
    have named : isIdentifier key = true := by
      cases value with
      | pointer => exact regular
      | string => exact regular.1
    rw [references_of_line rfl, references_tail rfl (by decide), references_gap rfl (by decide),
      references_head rfl (by decide), references_interned named, references_mapValue regular]
    cases value with
    | pointer target => simp [interned, inserted, paramNames]
    | string name => simp [interned, inserted, paramNames]
  | mapClose => rw [references_of_line rfl, references_fixed rfl (by decide)]; rfl
  | dictDefine name table =>
    rw [references_of_line rfl, references_tail rfl (by decide), references_gap rfl (by decide),
      references_head rfl (by decide)]
    simp [interned, inserted, paramNames]
  | typeDefine name className makeNew locals =>
    rw [references_typeDefine regular]
    simp [interned, inserted, paramNames]
  | moduleDefine name globals =>
    rw [references, lines]
    simp only [List.flatMap_cons, List.flatMap_nil]
    rw [references_tail rfl (by decide), references_head rfl (by decide),
      references_fixed (s := ".base = \x7b &mp_type_module \x7d,") rfl (by decide),
      references_tail rfl (by decide), references_head rfl (by decide),
      references_fixed (s := "\x7d;") rfl (by decide)]
    simp [interned, inserted, paramNames]
  | register module object condition =>
    rw [references_of_line rfl, references_tail rfl (by decide), references_gap rfl (by decide),
      references_gap rfl (by decide), references_head rfl (by decide), references_interned regular]
    simp [interned, inserted, paramNames]

end Fragment

/-! ## Initializers -/

/-- An initializer interns a string that it is made from, and nothing else. -/
theorem references_initializer (value : Literal) (kind : ArgKind) :
    Symbol.references (value.initializer kind).text =
      match value.constant? kind with
      | some (.stringObject content) => [content]
      | _ => [] := by
  have braces (init : Initializer) :
      Symbol.references init.text = Symbol.references init.member := by
    rw [Initializer.text, references_tail rfl (by decide), references_head rfl (by decide)]
  rw [braces, Literal.initializer]
  cases constant : value.constant? kind with
  | none => exact references_fixed rfl (by decide)
  | some init =>
    rw [Option.getD_some]
    cases init with
    | null => exact references_fixed rfl (by decide)
    | int n =>
      show Symbol.references (".u_int = " ++ toString n) = []
      rw [references_head rfl (by decide)]
      exact references_int n
    | bool b => cases b <;> exact references_fixed rfl (by decide)
    | boolObject b => cases b <;> exact references_fixed rfl (by decide)
    | intObject n =>
      show Symbol.references (".u_rom_obj = MP_ROM_INT(" ++ toString n ++ ")") = []
      rw [references_tail rfl (by decide), references_head rfl (by decide)]
      exact references_int n
    | stringObject content =>
      show Symbol.references (".u_rom_obj = MP_ROM_QSTR(" ++ interned content ++ ")") = [content]
      rw [references_tail rfl (by decide), references_head rfl (by decide)]
      exact references_interned (Literal.constant?_eq_stringObject_iff.mp constant).2.2

end BindingGen
