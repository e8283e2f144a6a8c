import BindingGen.Literal
import BindingGen.Proofs.Decimal.Numeral
import Mathlib.Data.List.DropRight

/-!
# Literals read back

One text space holds six classes of literals, told apart in a fixed order. A literal has many
spellings and is written in one of them, so its display text has to be of its own class again: not
blank at its ends, no keyword, and of no class that is tried earlier.

Results:
1. `Literal.readable_ofText`: what a text spells is in the range or the format of its class.
2. `Literal.ofText_text`: the display text of such a literal reads as this literal.
3. `Literal.canonicalText_stable`: to write the literal that a text spells changes neither the
   literal nor its class, and to do it again changes nothing.
-/

namespace BindingGen

/-! ## Trimming -/

namespace Text

/-- A text without blanks at its ends is left alone by trimming. -/
theorem trimChars_eq_self {cs : List Char} (head : ∀ c ∈ cs.head?, isBlank c = false)
    (last : ∀ c ∈ cs.getLast?, isBlank c = false) : trimChars cs = cs := by
  have start : cs.dropWhile isBlank = cs := by
    rw [List.dropWhile_eq_self_iff]
    intro nonempty blank
    rw [List.getElem_zero, head _ (List.head?_eq_some_head _)] at blank
    cases blank
  have stop : cs.rdropWhile isBlank = cs := by
    rw [List.rdropWhile_eq_self_iff]
    intro nonempty blank
    rw [last _ (List.getLast?_eq_some_getLast nonempty)] at blank
    cases blank
  show (cs.dropWhile isBlank).rdropWhile isBlank = cs
  rw [start, stop]

/-- What is left after trimming has no blanks at its ends. -/
theorem trimChars_trimChars (cs : List Char) : trimChars (trimChars cs) = trimChars cs := by
  have shape : trimChars cs = (cs.dropWhile isBlank).rdropWhile isBlank := rfl
  have start := List.head?_dropWhile_not isBlank cs
  refine trimChars_eq_self ?_ ?_
  · intro c first
    obtain ⟨rest, equal⟩ := List.head?_eq_some_iff.mp first
    obtain ⟨after, whole⟩ := List.rdropWhile_prefix isBlank (l := cs.dropWhile isBlank)
    rw [← shape, equal] at whole
    rwa [← whole] at start
  · intro c final
    rw [shape] at final
    obtain ⟨nonempty, rfl⟩ := List.mem_getLast?_eq_getLast final
    exact Bool.eq_false_iff.mpr (List.rdropWhile_last_not isBlank _ nonempty)

theorem trimChars_of_no_blank {cs : List Char} (plain : ∀ c ∈ cs, isBlank c = false) :
    trimChars cs = cs :=
  trimChars_eq_self (fun c first => plain c (List.mem_of_mem_head? first))
    (fun c final => plain c (List.mem_of_mem_getLast? final))

theorem isBlank_of_isDigit {c : Char} (digit : c.isDigit = true) : isBlank c = false := by
  have range := Char.isDigit_iff_toNat.mp digit
  have zero : '0'.toNat = 48 := rfl
  have nine : '9'.toNat = 57 := rfl
  unfold isBlank
  simp
  omega

theorem isBlank_of_mem_toDigits (n : Nat) : ∀ c ∈ Nat.toDigits 10 n, isBlank c = false :=
  fun c member => isBlank_of_isDigit (Decimal.areDigits_toDigits n c member)

theorem isBlank_of_mem_decimalText (layout : Decimal.Layout) (x : Decimal.Scientific) :
    ∀ c ∈ layout.decimalText x, isBlank c = false := by
  have digits := isBlank_of_mem_toDigits x.digits
  have zeros (count : Nat) : ∀ c ∈ List.replicate count '0', isBlank c = false :=
    fun c member => isBlank_of_isDigit (Decimal.areDigits_zeros count c member)
  have zero : isBlank '0' = false := by decide
  have point : isBlank '.' = false := by decide
  unfold Decimal.Layout.decimalText
  dsimp only
  split
  · unfold Decimal.Layout.positional
    split
    · exact List.forall_mem_cons.mpr ⟨zero, List.forall_mem_cons.mpr ⟨point,
        List.forall_mem_append.mpr ⟨zeros _, digits⟩⟩⟩
    · refine List.forall_mem_append.mpr ⟨List.forall_mem_append.mpr ⟨?_, zeros _⟩,
        List.forall_mem_cons.mpr ⟨point, ?_⟩⟩
      · exact fun c member => digits c (List.mem_of_mem_take member)
      · split
        · exact List.forall_mem_singleton.mpr zero
        · exact fun c member => digits c (List.mem_of_mem_drop member)
  · have exponent : isBlank 'e' = false := by decide
    have minus : isBlank '-' = false := by decide
    have plus : isBlank '+' = false := by decide
    refine List.forall_mem_append.mpr ⟨List.forall_mem_append.mpr ⟨?_, ?_⟩,
      List.forall_mem_cons.mpr ⟨exponent, List.forall_mem_append.mpr
        ⟨List.forall_mem_append.mpr ⟨?_, zeros _⟩, isBlank_of_mem_toDigits _⟩⟩⟩
    · exact fun c member => digits c (List.mem_of_mem_take member)
    · split
      · exact List.forall_mem_nil _
      · exact List.forall_mem_cons.mpr
          ⟨point, fun c member => digits c (List.mem_of_mem_drop member)⟩
    · split
      · exact List.forall_mem_singleton.mpr minus
      · split
        · exact List.forall_mem_singleton.mpr plus
        · exact List.forall_mem_nil _

/-- A written value has no blanks. -/
theorem isBlank_of_mem_chars (layout : Decimal.Layout) (x : Decimal.Binary64) :
    ∀ c ∈ layout.chars x, isBlank c = false := by
  have word {cs : List Char} (plain : (cs.all fun c => !isBlank c) = true) :
      ∀ c ∈ cs, isBlank c = false := by
    simpa using plain
  have sign (negative : Bool) : ∀ c ∈ if negative then ['-'] else [], isBlank c = false := by
    cases negative <;> exact word rfl
  cases x with
  | nan => exact @word ['N', 'a', 'N'] rfl
  | infinite negative => exact List.forall_mem_append.mpr ⟨sign negative, word rfl⟩
  | finite negative significand exponent =>
    refine List.forall_mem_append.mpr ⟨sign negative, ?_⟩
    split
    · exact word rfl
    · exact isBlank_of_mem_decimalText layout _

end Text

namespace Literal

/-! ## Texts of one class -/

theorem ofTrimmed_of_integer? {cs : List Char} {n : Int} (read : integer? cs = some n) :
    ofTrimmed cs = .int n := by
  unfold ofTrimmed
  rw [if_neg, if_neg, if_neg, read]
  all_goals
    rw [beq_iff_eq]
    rintro rfl
    cases read

theorem ofTrimmed_of_decimalNumeral? {cs : List Char} {x : Decimal.Binary64}
    (noInteger : integer? cs = Option.none)
    (read : Decimal.decimalNumeral? cs = some x) : ofTrimmed cs = .float x := by
  unfold ofTrimmed
  rw [if_neg, if_neg, if_neg, noInteger, read]
  all_goals
    rw [beq_iff_eq]
    rintro rfl
    cases read

/-- A quote starts no numeral and no word. -/
theorem numeral?_quote (cs : List Char) :
    Decimal.wholeNumeral? ('\'' :: cs) = Option.none ∧
      Decimal.decimalNumeral? ('\'' :: cs) = Option.none := by
  have sign : Decimal.splitSign ('\'' :: cs) = (false, '\'' :: cs) := rfl
  have digits : Decimal.splitDigits ('\'' :: cs) = ([], '\'' :: cs) := by
    have none : Decimal.AreDigits [] := List.forall_mem_nil _
    exact Decimal.span_isDigit none (Decimal.noDigit_cons (by decide))
  refine ⟨rfl, ?_⟩
  have number : Decimal.scientific? ('\'' :: cs) = Option.none := by
    rw [Decimal.scientific?, digits]
    rfl
  rw [Decimal.decimalNumeral?, sign]
  dsimp only
  rw [number]
  rfl

theorem ofTrimmed_quoted (content : List Char) :
    ofTrimmed ('\'' :: (content ++ ['\''])) = .str (String.ofList content) := by
  obtain ⟨noWhole, noDecimal⟩ := numeral?_quote (content ++ ['\''])
  have noInteger : integer? ('\'' :: (content ++ ['\''])) = Option.none := by
    rw [integer?, noWhole]
    rfl
  have between : quoted? ('\'' :: (content ++ ['\''])) = some content := by
    simp [quoted?]
  unfold ofTrimmed
  rw [if_neg (by simp), if_neg (by simp), if_neg (by simp), noInteger, noDecimal, between]

/-! ## Display texts -/

theorem integer?_toString {n : Int} (inRange : InRange n) :
    integer? (toString n).toList = some n := by
  rw [integer?, Decimal.wholeNumeral?_toString, Option.filter_some, decide_eq_true inRange,
    if_pos rfl]

theorem ofText_text_int {n : Int} (inRange : InRange n) : ofText (text (.int n)) = .int n := by
  have noBlank : ∀ c ∈ (toString n).toList, Text.isBlank c = false := by
    intro c member
    obtain digit | rfl | rfl :=
      Decimal.isDigit_or_sign_of_wholeNumeral? (Decimal.wholeNumeral?_toString n) c member
    · exact Text.isBlank_of_isDigit digit
    · decide
    · decide
  rw [ofText, text, Text.trimChars_of_no_blank noBlank]
  exact ofTrimmed_of_integer? (integer?_toString inRange)

theorem toList_text_float (x : Decimal.Binary64) :
    (text (.float x)).toList = floatLayout.chars x := String.toList_ofList

theorem ofText_text_float {x : Decimal.Binary64} (canonical : x.Canonical) :
    ofText (text (.float x)) = .float x := by
  have trimmed : Text.trimChars (floatLayout.chars x) = floatLayout.chars x :=
    Text.trimChars_of_no_blank (Text.isBlank_of_mem_chars floatLayout x)
  have noInteger : integer? (floatLayout.chars x) = Option.none := by
    rw [integer?, Decimal.wholeNumeral?_chars]
    rfl
  rw [ofText, toList_text_float, trimmed]
  exact ofTrimmed_of_decimalNumeral? noInteger (Decimal.decimalNumeral?_chars floatLayout canonical)

theorem ofText_text_str (content : String) : ofText (text (.str content)) = .str content := by
  have chars : (text (.str content)).toList = '\'' :: (content.toList ++ ['\'']) := by
    simp [text]
  have trimmed : Text.trimChars ('\'' :: (content.toList ++ ['\''])) =
      '\'' :: (content.toList ++ ['\'']) := by
    refine Text.trimChars_eq_self ?_ ?_
    · rintro c ⟨⟩
      decide
    · intro c final
      rw [← List.cons_append, List.getLast?_concat] at final
      cases final
      decide
  rw [ofText, chars, trimmed, ofTrimmed_quoted, String.ofList_toList]

/-- The literals that texts spell: integers are in range, floats are of the format, and a text of no
other class stands for itself. -/
inductive Readable : Literal → Prop
  | none : Readable .none
  | bool (value : Bool) : Readable (.bool value)
  | int {n : Int} : InRange n → Readable (.int n)
  | float {x : Decimal.Binary64} : x.Canonical → Readable (.float x)
  | str (content : String) : Readable (.str content)
  | other {written : String} : ofText written = .other written → Readable (.other written)

theorem readable_ofText (s : String) : Readable (ofText s) := by
  have trimmed := Text.trimChars_trimChars s.toList
  rw [ofText]
  generalize Text.trimChars s.toList = cs at trimmed ⊢
  -- The cases are the classes, in the order in which they are tried.
  fun_cases ofTrimmed cs with
  | case1 => exact .none
  | case2 => exact .bool true
  | case3 => exact .bool false
  | case4 _ _ _ n read => exact .int (of_decide_eq_true (Option.filter_eq_some_iff.mp read).2)
  | case5 _ _ _ _ x read => exact .float (Decimal.canonical_of_decimalNumeral? read)
  | case6 => exact .str _
  | case7 notNone notTrue notFalse noInteger noNumeral noQuotes =>
    refine .other ?_
    rw [ofText, String.toList_ofList, trimmed, ofTrimmed, if_neg notNone, if_neg notTrue,
      if_neg notFalse, noInteger, noNumeral, noQuotes]

/-- The display text of a literal reads as this literal if some text does. -/
theorem ofText_text {literal : Literal} (readable : Readable literal) :
    ofText literal.text = literal := by
  cases readable with
  | none => decide +kernel
  | bool value =>
    cases value with
    | true => decide +kernel
    | false => decide +kernel
  | int inRange => exact ofText_text_int inRange
  | float canonical => exact ofText_text_float canonical
  | str content => exact ofText_text_str content
  | other plain => exact plain

/-- The display text of the literal that a text spells reads as this literal. -/
theorem ofText_text_ofText (s : String) : ofText (ofText s).text = ofText s :=
  ofText_text (readable_ofText s)

/-! ## Canonical texts -/

/-- The classes that share the space of texts. -/
inductive Kind where
  | none
  | bool
  | int
  | float
  | str
  | other
  deriving DecidableEq

/-- The class of a literal. -/
def kind : Literal → Kind
  | .none => .none
  | .bool _ => .bool
  | .int _ => .int
  | .float _ => .float
  | .str _ => .str
  | .other _ => .other

/-- The one spelling of the literal that a text spells. -/
def canonicalText (s : String) : String := (ofText s).text

/-- Texts have the same canonical text if and only if they spell the same literal. -/
theorem canonicalText_inj {s t : String} :
    canonicalText s = canonicalText t ↔ ofText s = ofText t := by
  constructor
  · intro same
    rw [← ofText_text_ofText s, ← ofText_text_ofText t]
    exact congrArg ofText same
  · exact fun same => congrArg text same

/-- A canonical text spells the literal of the text it comes from, in particular one of the same
class, and is its own canonical text. -/
theorem canonicalText_stable (s : String) :
    ofText (canonicalText s) = ofText s ∧
      canonicalText (canonicalText s) = canonicalText s ∧
      (ofText (canonicalText s)).kind = (ofText s).kind := by
  have same : ofText (canonicalText s) = ofText s := ofText_text_ofText s
  exact ⟨same, canonicalText_inj.mpr same, congrArg kind same⟩

example : canonicalText " -007 " = "-7" ∧ canonicalText "\"it's 5\"" = "'it's 5'" ∧
    canonicalText "+nan" = "NaN" ∧ canonicalText "True " = "True" := by
  decide +kernel

end Literal

end BindingGen
