import BindingGen.Initializer
import BindingGen.Proofs.Literal
import BindingGen.Proofs.Symbol.Collection
import BindingGen.Proofs.Text.Identifier

/-!
# Constants for defaults

A default is a literal, and the row of an argument table holds a constant for it. Whether there is
one depends on the class of the literal and on the kind of the argument: a number serves as a
number, as a truth value and as an object, a string as an object only, and only if it can be
interned under its own name.

`Denotes` says when a constant stands for a literal, without regard to how one is chosen, and
`Initializer.read?` reads a constant off its text, without regard to how it is written.

Results:
1. `Initializer.read?_text`: the text of a constant reads as this constant.
2. `constant?_eq_some_iff`: a constant is chosen for a literal if and only if it denotes it.
3. `kept_or_nulled`: a default is written as a constant that denotes it and nothing is reported, or
   as the null pointer, which is reported unless the default is `None`.
-/

namespace BindingGen

open SymbolLine (between?)

namespace Initializer

/-! ## Reading constants -/

/-- Reads a member with a number in it. -/
def numbered? (start stop : String) (make : Int → Initializer) (member : String) :
    Option Initializer :=
  (between? start stop member.toList).bind fun digits =>
    (Literal.integer? digits.toList).map make

/-- Reads a member with a name in it. -/
def named? (start stop : String) (make : String → Initializer) (member : String) :
    Option Initializer :=
  ((between? start stop member.toList).filter Text.isIdentifier).map make

/-- The members with nothing to be read in them. -/
def plainMembers : List (String × Initializer) :=
  [(".u_obj = MP_OBJ_NULL", .null), (".u_bool = true", .bool true),
    (".u_bool = false", .bool false), (".u_rom_obj = MP_ROM_TRUE", .boolObject true),
    (".u_rom_obj = MP_ROM_FALSE", .boolObject false)]

/-- Reads the member that a constant sets. -/
def readMember? (member : String) : Option Initializer :=
  numbered? ".u_int = " "" .int member <|>
    numbered? ".u_rom_obj = MP_ROM_INT(" ")" .intObject member <|>
    named? ".u_rom_obj = MP_ROM_QSTR(MP_QSTR_" ")" .stringObject member <|>
    plainMembers.lookup member

/-- Reads a constant in braces. -/
def read? (text : String) : Option Initializer :=
  (between? "\x7b " " \x7d" text.toList).bind readMember?

example : read? "\x7b .u_rom_obj = MP_ROM_INT(-5) \x7d" = some (.intObject (-5)) := by
  decide +kernel

/-- A constant can be read if its number is one of 64 bits, or its name an identifier. -/
def Legible : Initializer → Prop
  | int value => Literal.InRange value
  | intObject value => Literal.InRange value
  | stringObject content => Text.isIdentifier content = true
  | _ => True

theorem member_int (value : Int) : (int value).member = ".u_int = " ++ toString value := rfl

theorem member_intObject (value : Int) :
    (intObject value).member = ".u_rom_obj = MP_ROM_INT(" ++ toString value ++ ")" := rfl

theorem member_stringObject (content : String) :
    (stringObject content).member = ".u_rom_obj = MP_ROM_QSTR(MP_QSTR_" ++ content ++ ")" := by
  show ".u_rom_obj = MP_ROM_QSTR(" ++ ("MP_QSTR_" ++ content) ++ ")" = _
  rw [← String.append_assoc]
  rfl

theorem numbered?_append {start stop : String} {make : Int → Initializer} {n : Int}
    (inRange : Literal.InRange n) :
    numbered? start stop make (start ++ toString n ++ stop) = some (make n) := by
  have found : between? start stop (start ++ toString n ++ stop).toList = some (toString n) :=
    SymbolLine.between?_eq_some_iff.mpr (by simp)
  rw [numbered?, found, Option.bind_some, Literal.integer?_toString inRange, Option.map_some]

theorem named?_append {start stop : String} {make : String → Initializer} {name : String}
    (identifier : Text.isIdentifier name = true) :
    named? start stop make (start ++ name ++ stop) = some (make name) := by
  have found : between? start stop (start ++ name ++ stop).toList = some name :=
    SymbolLine.between?_eq_some_iff.mpr (by simp)
  rw [named?, found, Option.filter_some, if_pos identifier, Option.map_some]

/-- The text of a constant reads as this constant. -/
theorem read?_text {init : Initializer} (legible : init.Legible) :
    read? init.text = some init := by
  have inside : between? "\x7b " " \x7d" init.text.toList = some init.member :=
    SymbolLine.between?_eq_some_iff.mpr (by simp [text])
  rw [read?, inside, Option.bind_some]
  -- The forms are tried in the order in which they are listed, so the earlier ones have to fail.
  cases init with
  | null => decide +kernel
  | bool value =>
    cases value with
    | true => decide +kernel
    | false => decide +kernel
  | boolObject value =>
    cases value with
    | true => decide +kernel
    | false => decide +kernel
  | int value =>
    have number : numbered? ".u_int = " "" .int (".u_int = " ++ toString value ++ "") =
        some (int value) := numbered?_append legible
    rw [String.append_empty] at number
    rw [readMember?, member_int, number]
    rfl
  | intObject value =>
    have noNumber : numbered? ".u_int = " "" .int (intObject value).member = none := by
      rw [numbered?, member_intObject, String.append_assoc, String.toList_append]
      rfl
    rw [readMember?, noNumber, member_intObject, numbered?_append legible]
    rfl
  | stringObject content =>
    have noNumber : numbered? ".u_int = " "" .int (stringObject content).member = none := by
      rw [numbered?, member_stringObject, String.append_assoc, String.toList_append]
      rfl
    have noObject : numbered? ".u_rom_obj = MP_ROM_INT(" ")" .intObject
        (stringObject content).member = none := by
      rw [numbered?, member_stringObject, String.append_assoc, String.toList_append]
      rfl
    rw [readMember?, noNumber, noObject, member_stringObject, named?_append legible]
    rfl

/-- The text of the null pointer. -/
def nullText : String := "\x7b .u_obj = MP_OBJ_NULL \x7d"

/-- No other constant is written like the null pointer. -/
theorem text_eq_nullText_iff {init : Initializer} : init.text = nullText ↔ init = null := by
  constructor
  · intro same
    cases init with
    | null => rfl
    | bool value => cases value <;> exact absurd same (by decide +kernel)
    | boolObject value => cases value <;> exact absurd same (by decide +kernel)
    | int value => simp [text, member_int, nullText, ← String.toList_inj] at same
    | intObject value => simp [text, member_intObject, nullText, ← String.toList_inj] at same
    | stringObject content =>
      simp [text, member_stringObject, nullText, ← String.toList_inj] at same
  · rintro rfl
    rfl

/-- A text is one initializer in braces, with no braces inside. -/
def Braced (text : String) : Prop :=
  ∃ inside, text = "\x7b" ++ inside ++ "\x7d" ∧ '\x7b' ∉ inside.toList ∧ '\x7d' ∉ inside.toList

theorem braced_text {init : Initializer} (legible : init.Legible) : Braced init.text := by
  have number (n : Int) : '\x7b' ∉ (toString n).toList ∧ '\x7d' ∉ (toString n).toList := by
    have digits := Decimal.isDigit_or_sign_of_wholeNumeral? (Decimal.wholeNumeral?_toString n)
    exact ⟨fun member => absurd (digits _ member) (by decide),
      fun member => absurd (digits _ member) (by decide)⟩
  have inside : '\x7b' ∉ init.member.toList ∧ '\x7d' ∉ init.member.toList := by
    cases init with
    | null => decide
    | bool value => cases value <;> decide
    | boolObject value => cases value <;> decide
    | int value => simpa [member_int] using number value
    | intObject value => simpa [member_intObject] using number value
    | stringObject content =>
      have words := Text.allWord_of_isIdentifier legible
      have name : '\x7b' ∉ content.toList ∧ '\x7d' ∉ content.toList :=
        ⟨Text.not_mem_of_allWord words (by decide), Text.not_mem_of_allWord words (by decide)⟩
      simpa [member_stringObject] using name
  refine ⟨" " ++ init.member ++ " ", ?_, ?_, ?_⟩
  · rw [← String.toList_inj, text]
    simp
  · simpa using inside.1
  · simpa using inside.2

end Initializer

/-! ## Constants that stand for literals -/

/-- The number that a literal stands for: a truth value is zero or one. -/
def Literal.number? : Literal → Option Int
  | .bool value => some (if value then 1 else 0)
  | .int n => some n
  | _ => Option.none

/-- `Denotes init value kind`: the constant stands for the literal in an argument of the kind. A
number is asked for as it is or for being zero; objects keep the class of the literal, and a string
is an object if it can be interned under its own name. -/
inductive Denotes : Initializer → Literal → ArgKind → Prop
  | int {value : Literal} {n : Int} : value.number? = some n → Denotes (.int n) value .integer
  | bool {value : Literal} {n : Int} :
      value.number? = some n → Denotes (.bool (n != 0)) value .boolean
  | boolObject {b : Bool} {kind : ArgKind} :
      kind.isObject = true → Denotes (.boolObject b) (.bool b) kind
  | intObject {n : Int} {kind : ArgKind} :
      kind.isObject = true → Denotes (.intObject n) (.int n) kind
  | stringObject {content : String} {kind : ArgKind} :
      kind.isObject = true → Text.isIdentifier content = true →
      Denotes (.stringObject content) (.str content) kind

namespace Literal

/-- Any literal but `None` has a constant if and only if the constant denotes it. -/
theorem constant?_eq_some_iff {value : Literal} {kind : ArgKind} {init : Initializer}
    (given : value ≠ .none) : value.constant? kind = some init ↔ Denotes init value kind := by
  constructor
  · intro chosen
    cases value with
    | none => exact absurd rfl given
    | bool b =>
      cases kind with
      | integer => cases chosen; exact .int rfl
      | boolean =>
        cases chosen
        cases b with
        | true => exact .bool (n := 1) rfl
        | false => exact .bool (n := 0) rfl
      | object => cases chosen; exact .boolObject rfl
      | nullable => cases chosen; exact .boolObject rfl
    | int n =>
      cases kind with
      | integer => cases chosen; exact .int rfl
      | boolean => cases chosen; exact .bool rfl
      | object => cases chosen; exact .intObject rfl
      | nullable => cases chosen; exact .intObject rfl
    | str content =>
      rw [constant?] at chosen
      split at chosen
      · next fits =>
        cases chosen
        exact .stringObject (Bool.and_eq_true_iff.mp fits).1 (Bool.and_eq_true_iff.mp fits).2
      · cases chosen
    | float => cases chosen
    | other => cases chosen
  · intro denotes
    cases denotes with
    | int number =>
      cases value with
      | bool b => cases number; rfl
      | int n => cases number; rfl
      | _ => cases number
    | bool number =>
      cases value with
      | bool b => cases number; cases b <;> rfl
      | int n => cases number; rfl
      | _ => cases number
    | boolObject object =>
      cases kind with
      | object | nullable => rfl
      | integer | boolean => cases object
    | intObject object =>
      cases kind with
      | object | nullable => rfl
      | integer | boolean => cases object
    | stringObject object identifier => rw [constant?, object, identifier]; rfl

/-- Only a string that can be interned under its own name becomes an interned string. -/
theorem constant?_eq_stringObject_iff {value : Literal} {kind : ArgKind} {content : String} :
    value.constant? kind = some (.stringObject content) ↔
      value = .str content ∧ kind.isObject = true ∧ Text.isIdentifier content = true := by
  by_cases given : value = .none
  · subst given
    exact iff_of_false nofun nofun
  · rw [constant?_eq_some_iff given]
    constructor
    · intro denotes
      cases denotes with
      | stringObject object identifier => exact ⟨rfl, object, identifier⟩
    · rintro ⟨rfl, object, identifier⟩
      exact .stringObject object identifier

theorem initializer_of_denotes {value : Literal} {kind : ArgKind} {init : Initializer}
    (denotes : Denotes init value kind) : value.initializer kind = init := by
  have given : value ≠ .none := by
    rintro rfl
    cases denotes with
    | int number | bool number => cases number
  rw [initializer, (constant?_eq_some_iff given).mpr denotes]
  rfl

/-- A constant that denotes what a text spells can be read. -/
theorem legible_of_denotes {value : Literal} {kind : ArgKind} {init : Initializer}
    (readable : Readable value) (denotes : Denotes init value kind) : init.Legible := by
  cases denotes with
  | int number =>
    cases readable with
    | bool b => cases number; cases b <;> exact ⟨by decide, by decide⟩
    | int inRange => cases number; exact inRange
    | _ => cases number
  | intObject => cases readable with | int inRange => exact inRange
  | stringObject _ identifier => exact identifier
  | bool | boolObject => exact trivial

/-- Where no constant denotes a literal, it has the null pointer. -/
theorem denotes_or_null (value : Literal) (kind : ArgKind) :
    Denotes (value.initializer kind) value kind ∧ value.initializerNotes kind = [] ∨
      value.initializer kind = .null ∧ (∀ init, ¬ Denotes init value kind) ∧
        ((value = .none ∧ value.initializerNotes kind = []) ∨
          value ≠ .none ∧
            ∃ note, value.initializerNotes kind = [note] ∧ note.level = .warn) := by
  by_cases given : value = .none
  · subst given
    refine .inr ⟨rfl, fun init denotes => ?_, .inl ⟨rfl, rfl⟩⟩
    cases denotes with
    | int number | bool number => cases number
  · rw [initializerNotes, initializer]
    cases chosen : value.constant? kind with
    | none =>
      refine .inr ⟨rfl, fun init denotes => ?_, .inr ⟨given, _, rfl, rfl⟩⟩
      rw [(constant?_eq_some_iff given).mpr denotes] at chosen
      cases chosen
    | some init => exact .inl ⟨(constant?_eq_some_iff given).mp chosen, rfl⟩

/-- What is written for a literal that a text spells can be read. -/
theorem legible_initializer {value : Literal} (readable : Readable value) (kind : ArgKind) :
    (value.initializer kind).Legible := by
  obtain ⟨denotes, -⟩ | ⟨null, -⟩ := denotes_or_null value kind
  · exact legible_of_denotes readable denotes
  · rw [null]
    exact trivial

/-- `Kept value kind`: the default is written as a constant that denotes it, and nothing is
reported. -/
def Kept (value : Literal) (kind : ArgKind) : Prop :=
  ∃ init, Initializer.read? (value.initializer kind).text = some init ∧ Denotes init value kind ∧
    value.initializerNotes kind = []

/-- `Nulled value kind`: the default is written as the null pointer because no constant denotes it;
unless it is `None`, one warning says so. -/
def Nulled (value : Literal) (kind : ArgKind) : Prop :=
  (value.initializer kind).text = Initializer.nullText ∧ (∀ init, ¬ Denotes init value kind) ∧
    ((value = .none ∧ value.initializerNotes kind = []) ∨
      value ≠ .none ∧ ∃ note, value.initializerNotes kind = [note] ∧ note.level = .warn)

/-- What a text spells is written as one initializer in braces, and it is kept or nulled; an integer
can be read back, save where it is asked only for being zero. -/
theorem kept_or_nulled (text : String) (kind : ArgKind) :
    Initializer.Braced ((ofText text).initializer kind).text ∧
      (Kept (ofText text) kind ∨ Nulled (ofText text) kind) ∧
      ∀ n, ofText text = .int n → InRange n ∧
        (kind = .integer →
          Initializer.read? ((ofText text).initializer kind).text = some (.int n)) ∧
        (kind.isObject = true →
          Initializer.read? ((ofText text).initializer kind).text = some (.intObject n)) := by
  have readable := readable_ofText text
  generalize ofText text = value at readable ⊢
  have legible := legible_initializer readable kind
  refine ⟨Initializer.braced_text legible, ?_, ?_⟩
  · obtain ⟨denotes, silent⟩ | ⟨null, nothing, reported⟩ := denotes_or_null value kind
    · exact .inl ⟨_, Initializer.read?_text legible, denotes, silent⟩
    · exact .inr ⟨Initializer.text_eq_nullText_iff.mpr null, nothing, reported⟩
  · rintro n rfl
    rw [Initializer.read?_text legible]
    refine ⟨?_, ?_, fun object => ?_⟩
    · cases readable with | int inRange => exact inRange
    · rintro rfl
      rfl
    · rw [initializer_of_denotes (.intObject object)]

end Literal

end BindingGen
