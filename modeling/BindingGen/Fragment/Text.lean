import BindingGen.Fragment.Basic

/-!
The C text of a fragment: lines with depths relative to the fragment's own. What comes from a
descriptor is inserted as it is, save in comments: the comment at the head of the file cannot be
closed or opened by inserted text, and a line comment has no line feeds.
-/

namespace BindingGen

/-- A line of C with the depth at which it stands. -/
structure Line where
  depth : Nat
  text : String
  deriving DecidableEq, Repr

/-- A text in which the pair of characters `a`, `b` is driven apart by a blank, from left to
right. -/
def splitPair (a b : Char) : List Char → List Char
  | [] => []
  | [c] => [c]
  | c :: d :: rest =>
    if c = a ∧ d = b then a :: ' ' :: b :: splitPair a b rest else c :: splitPair a b (d :: rest)

/-- A character, or a blank for one that ends a line. -/
def blankBreak (c : Char) : Char := if c == '\r' || c == '\n' then ' ' else c

/-- A text for the inside of a block comment, without its closer, its opener and line breaks. -/
def blockCommentText (s : String) : String :=
  String.ofList ((splitPair '/' '*' (splitPair '*' '/' s.toList)).map blankBreak)

/-- A text for a line comment, without line feeds. -/
def lineCommentText (s : String) : String :=
  String.ofList (s.toList.map fun c => if c == '\n' then ' ' else c)

/-- The text of a parameter list. -/
def EntryParams.text : EntryParams → String
  | fixed [] => "void"
  | fixed names => ", ".intercalate (names.map ("mp_obj_t " ++ ·))
  | array => "size_t n_args, const mp_obj_t *args"
  | parsedArray => "size_t n_args, const mp_obj_t *pos_args"
  | keywordMap => "size_t n_args, const mp_obj_t *pos_args, mp_map_t *kw_args"
  | makeNew => "const mp_obj_type_t *type, size_t n_args, size_t n_kw, const mp_obj_t *args"

/-- The text of what a map entry refers to. -/
def MapValue.text : MapValue → String
  | pointer target => "MP_ROM_PTR(&" ++ target ++ ")"
  | string name => "MP_ROM_QSTR(" ++ interned name ++ ")"

/-- The text of a row of an argument table. -/
def ArgRow.text (row : ArgRow) : String :=
  let flags :=
    (if row.required then ["MP_ARG_REQUIRED"] else []) ++
      (if row.keywordOnly then ["MP_ARG_KW_ONLY"] else []) ++ [row.kind.flag]
  let initializer :=
    match row.initializer with
    | some text => ", " ++ text
    | none => ""
  "\x7b " ++ interned row.name ++ ", " ++ " | ".intercalate flags ++ initializer ++ " \x7d,"

/-- The macro that registers an entry point of a shape. -/
def CallShape.registration (object entry : String) : CallShape → String
  | fixed count =>
    "static MP_DEFINE_CONST_FUN_OBJ_" ++ toString count ++ "(" ++ object ++ ", " ++ entry ++ ");"
  | between least most =>
    "static MP_DEFINE_CONST_FUN_OBJ_VAR_BETWEEN(" ++ object ++ ", " ++ toString least ++ ", " ++
      toString most ++ ", " ++ entry ++ ");"
  | atLeast least =>
    "static MP_DEFINE_CONST_FUN_OBJ_VAR(" ++ object ++ ", " ++ toString least ++ ", " ++ entry ++
      ");"
  | keyword least =>
    "static MP_DEFINE_CONST_FUN_OBJ_KW(" ++ object ++ ", " ++ toString least ++ ", " ++ entry ++
      ");"

namespace Fragment

/-- The lines of the comment at the head of the file. -/
def headerLines (module : String) (author : Option String) (year : Option Nat) : List Line :=
  let holder :=
    match year, author with
    | some year, some author => some (toString year ++ " " ++ author)
    | some year, none => some (toString year)
    | none, some author => some author
    | none, none => none
  let credit :=
    match holder with
    | some holder => [⟨0, " *"⟩, ⟨0, " * Copyright (c) " ++ blockCommentText holder⟩]
    | none => []
  [⟨0, "/*"⟩, ⟨0, " * Native bindings for the '" ++ blockCommentText module ++ "' module."⟩] ++
    credit ++
    [⟨0, " *"⟩, ⟨0, " * Generated by mpgen. Function bodies are placeholders."⟩, ⟨0, " */"⟩]

/-- The texts with a comma after each but the last. -/
def withCommas : List String → List String
  | [] => []
  | [last] => [last]
  | text :: rest => (text ++ ",") :: withCommas rest

/-- The lines that define a type. -/
def typeLines (name className : String) (makeNew locals : Option String) : List Line :=
  let slots :=
    [name, interned className, "MP_TYPE_FLAG_NONE"] ++
      (makeNew.map ("make_new, " ++ ·)).toList ++ (locals.map ("locals_dict, &" ++ ·)).toList
  [⟨0, "MP_DEFINE_CONST_OBJ_TYPE("⟩] ++ (withCommas slots).map (⟨1, ·⟩) ++ [⟨0, ");"⟩]

/-- The lines of a fragment. -/
def lines : Fragment → List Line
  | header module author year => headerLines module author year
  | includeFile file => [⟨0, "#include \"" ++ file ++ "\""⟩]
  | ifOpen condition => [⟨0, "#if " ++ condition⟩]
  | ifClose condition => [⟨0, "#endif // " ++ condition⟩]
  | blank => [⟨0, ""⟩]
  | comment text => [⟨0, "// " ++ lineCommentText text⟩]
  | entryOpen name params => [⟨0, "static mp_obj_t " ++ name ++ "(" ++ params.text ++ ") \x7b"⟩]
  | slotEnum slots => [⟨0, "enum \x7b " ++ ", ".intercalate slots ++ " \x7d;"⟩]
  | argTableOpen => [⟨0, "static const mp_arg_t allowed_args[] = \x7b"⟩]
  | argRow row => [⟨0, row.text⟩]
  | argTableClose => [⟨0, "\x7d;"⟩]
  | argParse keywords =>
    [⟨0, "mp_arg_val_t args[MP_ARRAY_SIZE(allowed_args)];"⟩,
     ⟨0, if keywords then
        "mp_arg_parse_all(n_args, pos_args, kw_args, MP_ARRAY_SIZE(allowed_args), allowed_args, args);"
      else
        "mp_arg_parse_all_kw_array(n_args, 0, pos_args, MP_ARRAY_SIZE(allowed_args), allowed_args, args);"⟩]
  | arityCheck min max keywords =>
    let most := (max.map toString).getD "MP_OBJ_FUN_ARGS_MAX"
    [⟨0, "mp_arg_check_num(n_args, n_kw, " ++ toString min ++ ", " ++ most ++ ", " ++
      FunctionDecl.flagText keywords ++ ");"⟩]
  | allocate layout => [⟨0, layout ++ " *self = mp_obj_malloc(" ++ layout ++ ", type);"⟩]
  | placeholder what =>
    [⟨0, "mp_raise_NotImplementedError(MP_ERROR_TEXT(\"" ++ what ++ " is not implemented\"));"⟩]
  | raw line => [⟨0, line⟩]
  | returnValue value => [⟨0, "return " ++ value ++ ";"⟩]
  | blockClose => [⟨0, "\x7d"⟩]
  | functionObject object entry shape => [⟨0, shape.registration object entry⟩]
  | instanceLayout name =>
    [⟨0, "typedef struct _" ++ name ++ " \x7b"⟩, ⟨1, "mp_obj_base_t base;"⟩,
     ⟨0, "\x7d " ++ name ++ ";"⟩]
  | mapOpen name => [⟨0, "static const mp_rom_map_elem_t " ++ name ++ "[] = \x7b"⟩]
  | mapEntry key value =>
    [⟨0, "\x7b MP_ROM_QSTR(" ++ interned key ++ "), " ++ value.text ++ " \x7d,"⟩]
  | mapClose => [⟨0, "\x7d;"⟩]
  | dictDefine name table =>
    [⟨0, "static MP_DEFINE_CONST_DICT(" ++ name ++ ", " ++ table ++ ");"⟩]
  | typeDefine name className makeNew locals => typeLines name className makeNew locals
  | moduleDefine name globals =>
    [⟨0, "const mp_obj_module_t " ++ name ++ " = \x7b"⟩, ⟨1, ".base = \x7b &mp_type_module \x7d,"⟩,
     ⟨1, ".globals = (mp_obj_dict_t *)&" ++ globals ++ ","⟩, ⟨0, "\x7d;"⟩]
  | register module object condition =>
    [⟨0, "MP_REGISTER_MODULE(" ++ interned module ++ ", " ++ object ++ ", " ++ condition ++ ");"⟩]

/-- So many blanks. -/
def spaces (count : Nat) : String := String.ofList (List.replicate count ' ')

/-- The text of a fragment by itself, with four blanks for each relative depth. -/
def text (fragment : Fragment) : String :=
  "\n".intercalate (fragment.lines.map fun line => spaces (4 * line.depth) ++ line.text)

end Fragment

end BindingGen
