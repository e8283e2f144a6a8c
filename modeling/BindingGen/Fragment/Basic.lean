import BindingGen.CallShape
import BindingGen.Initializer

/-!
Fragments: the pieces that a generated source is made of. A source is a flat sequence of fragments;
the kind of a fragment fixes how deep it stands.
-/

namespace BindingGen

/-- The parameters of an entry point. -/
inductive EntryParams where
  /-- One object for each argument. -/
  | fixed (names : List String)
  /-- The array of arguments, used as it is. -/
  | array
  /-- The array of arguments, to be checked against a table. -/
  | parsedArray
  /-- The array of arguments and the map of named ones. -/
  | keywordMap
  /-- Those of the function that makes the instances of a type. -/
  | makeNew
  deriving DecidableEq, Repr

/-- What an entry of a map refers to. -/
inductive MapValue where
  /-- The address of an object. -/
  | pointer (target : String)
  /-- An interned string. -/
  | string (name : String)
  deriving DecidableEq, Repr

/-- A row of an argument table. -/
structure ArgRow where
  name : String
  required : Bool
  keywordOnly : Bool
  kind : ArgKind
  initializer : Option String
  deriving DecidableEq, Repr

/-- A piece of a generated source. -/
inductive Fragment where
  | header (module : String) (author : Option String) (year : Option Nat)
  | includeFile (file : String)
  | ifOpen (condition : String)
  | ifClose (condition : String)
  | blank
  | comment (text : String)
  | entryOpen (name : String) (params : EntryParams)
  | slotEnum (slots : List String)
  | argTableOpen
  | argRow (row : ArgRow)
  | argTableClose
  | argParse (keywords : Bool)
  | arityCheck (min : Nat) (max : Option Nat) (keywords : Bool)
  | allocate (layout : String)
  | placeholder (what : String)
  | raw (line : String)
  | returnValue (value : String)
  | blockClose
  | functionObject (object : String) (entry : String) (shape : CallShape)
  | instanceLayout (name : String)
  | mapOpen (name : String)
  | mapEntry (key : String) (value : MapValue)
  | mapClose
  | dictDefine (name : String) (table : String)
  | typeDefine (name : String) (className : String) (makeNew : Option String)
      (locals : Option String)
  | moduleDefine (name : String) (globals : String)
  | register (module : String) (object : String) (condition : String)
  deriving DecidableEq, Repr

/-- The coarse kind of a fragment. -/
inductive FragmentKind where
  /-- The comment at the head of the file. -/
  | header
  /-- A line of the preprocessor. -/
  | directive
  /-- A declaration, a definition or the space around them. -/
  | declaration
  /-- A statement in the body of a function. -/
  | statement
  /-- A row of a table. -/
  | tableRow
  /-- A line of C that the documentation carries. -/
  | raw
  deriving DecidableEq, Repr

namespace Fragment

/-- The kind of a fragment. -/
def kind : Fragment → FragmentKind
  | header .. => .header
  | includeFile _ => .directive
  | ifOpen _ => .directive
  | ifClose _ => .directive
  | slotEnum _ => .statement
  | argTableOpen => .statement
  | argTableClose => .statement
  | argParse _ => .statement
  | arityCheck .. => .statement
  | allocate _ => .statement
  | placeholder _ => .statement
  | returnValue _ => .statement
  | argRow _ => .tableRow
  | mapEntry .. => .tableRow
  | raw _ => .raw
  | blank => .declaration
  | comment _ => .declaration
  | entryOpen .. => .declaration
  | blockClose => .declaration
  | functionObject .. => .declaration
  | instanceLayout _ => .declaration
  | mapOpen _ => .declaration
  | mapClose => .declaration
  | dictDefine .. => .declaration
  | typeDefine .. => .declaration
  | moduleDefine .. => .declaration
  | register .. => .declaration

/-- How deep a fragment stands: rows of an argument table stand inside a body and inside braces. -/
def depth (fragment : Fragment) : Nat :=
  match fragment with
  | argRow _ => 2
  | _ =>
    match fragment.kind with
    | .statement => 1
    | .raw => 1
    | .tableRow => 1
    | _ => 0

end Fragment

end BindingGen
