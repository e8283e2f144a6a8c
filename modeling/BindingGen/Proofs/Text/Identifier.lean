import BindingGen.Text.Identifier
import BindingGen.Text.Upper
import Mathlib.Computability.Language
import Mathlib.Data.List.Basic

/-!
# Identifiers and the words in them

Names of the generated code are joined from identifiers and fixed pieces. `allWord` is what a piece
has to be so that a name stays an identifier when the piece is put behind it.

1. `isIdentifier_append`: an identifier may be continued by word characters and by nothing else.
2. `allWord_upper`: upper case leads from word characters to word characters.
3. `isIdentifier_iff`: identifiers are the words of the pattern `[A-Za-z_][A-Za-z0-9_]*`.
-/

namespace BindingGen.Text

/-- Whether a text is made of word characters; it may be empty. -/
def allWord (s : String) : Bool := s.toList.all isWordChar

theorem allWord_append (a b : String) : allWord (a ++ b) = (allWord a && allWord b) := by
  rw [allWord, String.toList_append, List.all_append]
  rfl

theorem isWordChar_of_isWordStart {c : Char} (start : isWordStart c = true) :
    isWordChar c = true := by
  rcases Bool.or_eq_true_iff.mp start with letter | underscore
  · rw [isWordChar, Char.isAlphanum, letter]
    rfl
  · rw [isWordChar, underscore, Bool.or_true]

theorem allWord_of_isIdentifier {s : String} (identifier : isIdentifier s = true) :
    allWord s = true := by
  unfold isIdentifier at identifier
  unfold allWord
  cases chars : s.toList with
  | nil => rfl
  | cons c rest =>
    rw [chars, isIdentifierChars, Bool.and_eq_true_iff] at identifier
    rw [List.all_cons, isWordChar_of_isWordStart identifier.1, identifier.2]
    rfl

/-- An identifier may be continued by word characters, and by nothing else. -/
theorem isIdentifier_append {a b : String} (identifier : isIdentifier a = true) :
    isIdentifier (a ++ b) = allWord b := by
  unfold isIdentifier at identifier ⊢
  rw [String.toList_append]
  cases chars : a.toList with
  | nil =>
    rw [chars] at identifier
    cases identifier
  | cons c rest =>
    rw [chars, isIdentifierChars, Bool.and_eq_true_iff] at identifier
    rw [List.cons_append, isIdentifierChars, List.all_append, identifier.1, identifier.2]
    rfl

theorem not_mem_of_allWord {s : String} (words : allWord s = true) {c : Char}
    (outside : isWordChar c = false) : c ∉ s.toList := by
  intro member
  rw [allWord, List.all_eq_true] at words
  exact Bool.false_ne_true (outside.symm.trans (words c member))

/-! ## Upper case -/

theorem toNat_lt_of_isWordChar {c : Char} (word : isWordChar c = true) : c.toNat < 128 := by
  have below : ∀ {last : Char}, c.val ≤ last.val → last.toNat < 128 → c.toNat < 128 :=
    fun within small => Nat.lt_of_le_of_lt within small
  rcases Bool.or_eq_true_iff.mp word with alphanumeric | underscore
  · rcases Bool.or_eq_true_iff.mp alphanumeric with letter | digit
    · rcases Bool.or_eq_true_iff.mp letter with upper | lower
      · exact below (of_decide_eq_true upper).2 (by decide)
      · exact below (of_decide_eq_true (Bool.and_eq_true_iff.mp lower).2) (by decide)
    · exact below (of_decide_eq_true (Bool.and_eq_true_iff.mp digit).2) (by decide)
  · rw [eq_of_beq underscore]
    decide

/-- Word characters are within ASCII, where the upper case of one is another. -/
theorem isWordChar_upperChar {c : Char} (word : isWordChar c = true) :
    (upperChar c).all isWordChar = true := by
  have ascii := toNat_lt_of_isWordChar word
  have table : ∀ n < 128,
      isWordChar (Char.ofNat n) = true → isWordChar (Char.ofNat n).toUpper = true := by
    decide +kernel
  have upper := table c.toNat ascii
  rw [Char.ofNat_toNat] at upper
  rw [upperChar, if_pos ascii, List.all_cons, upper word]
  rfl

theorem allWord_upper {s : String} (words : allWord s = true) : allWord (upper s) = true := by
  rw [allWord, List.all_eq_true] at words
  rw [allWord, upper, String.toList_ofList, List.all_flatMap, List.all_eq_true]
  exact fun c member => isWordChar_upperChar (words c member)

/-! ## The pattern of identifiers -/

/-- The characters `[A-Za-z_]`. -/
def StartClass (c : Char) : Prop := ('A' ≤ c ∧ c ≤ 'Z') ∨ ('a' ≤ c ∧ c ≤ 'z') ∨ c = '_'

/-- The characters `[A-Za-z0-9_]`. -/
def WordClass (c : Char) : Prop := StartClass c ∨ ('0' ≤ c ∧ c ≤ '9')

/-- The words of one character of a class. -/
def oneOf (p : Char → Prop) : Language Char := {word | ∃ c, p c ∧ word = [c]}

/-- The language of the pattern `[A-Za-z_][A-Za-z0-9_]*`. -/
def identifiers : Language Char := oneOf StartClass * KStar.kstar (oneOf WordClass)

/-- A class of characters repeated gives the words over this class. -/
theorem mem_kstar_oneOf {p : Char → Prop} {word : List Char} :
    word ∈ KStar.kstar (oneOf p) ↔ ∀ c ∈ word, p c := by
  rw [Language.mem_kstar]
  constructor
  · rintro ⟨parts, rfl, each⟩ c member
    obtain ⟨part, inParts, inPart⟩ := List.mem_flatten.mp member
    obtain ⟨d, inClass, rfl⟩ := each part inParts
    rwa [List.mem_singleton.mp inPart]
  · intro all
    refine ⟨word.map ([·]), ?_, fun part inParts => ?_⟩
    · rw [← List.flatMap_def, List.flatMap_singleton']
    · obtain ⟨c, member, rfl⟩ := List.mem_map.mp inParts
      exact ⟨c, all c member, rfl⟩

theorem isWordStart_iff {c : Char} : isWordStart c = true ↔ StartClass c := by
  have upper : c.isUpper = true ↔ 'A' ≤ c ∧ c ≤ 'Z' := decide_eq_true_iff
  have lower : c.isLower = true ↔ 'a' ≤ c ∧ c ≤ 'z' :=
    Bool.and_eq_true_iff.trans (and_congr decide_eq_true_iff decide_eq_true_iff)
  have alpha : c.isAlpha = true ↔ c.isUpper = true ∨ c.isLower = true := Bool.or_eq_true_iff
  rw [isWordStart, Bool.or_eq_true_iff, beq_iff_eq, alpha, upper, lower, or_assoc]
  rfl

theorem isWordChar_iff {c : Char} : isWordChar c = true ↔ WordClass c := by
  have digit : c.isDigit = true ↔ '0' ≤ c ∧ c ≤ '9' := by
    rw [Char.isDigit, Bool.and_eq_true_iff, decide_eq_true_iff, decide_eq_true_iff]
    rfl
  rw [isWordChar, Char.isAlphanum, Bool.or_right_comm, ← isWordStart, Bool.or_eq_true_iff,
    isWordStart_iff, digit]
  rfl

/-- Identifiers are the words of the pattern. -/
theorem isIdentifier_iff {s : String} : isIdentifier s = true ↔ s.toList ∈ identifiers := by
  rw [isIdentifier, identifiers, Language.mem_mul]
  simp only [mem_kstar_oneOf]
  constructor
  · intro identifier
    cases chars : s.toList with
    | nil =>
      rw [chars] at identifier
      cases identifier
    | cons c rest =>
      rw [chars, isIdentifierChars, Bool.and_eq_true_iff, List.all_eq_true] at identifier
      exact ⟨[c], ⟨c, isWordStart_iff.mp identifier.1, rfl⟩, rest,
        fun d member => isWordChar_iff.mp (identifier.2 d member), rfl⟩
  · rintro ⟨_, ⟨c, start, rfl⟩, rest, words, chars⟩
    rw [← chars, List.singleton_append, isIdentifierChars, Bool.and_eq_true_iff, List.all_eq_true]
    exact ⟨isWordStart_iff.mpr start, fun d member => isWordChar_iff.mpr (words d member)⟩

end BindingGen.Text
