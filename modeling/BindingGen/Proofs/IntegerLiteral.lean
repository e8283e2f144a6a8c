import BindingGen.Proofs.Literal

/-!
# Integers among the literals

Whole numerals of any length belong to one class of texts, integers are held up to 64 bits. A whole
numeral beyond is tried as a decimal numeral next, which takes it: it becomes the double nearest to
the integer and is shown as this double, and not as it was written.

Results:
1. `spells_iff`: whole numerals are what the reader takes, with the integer they denote.
2. `denotesSigned_chars_iff`: what a written double denotes is its shortest decimal.
3. `keepsInteger_iff`: an integer is kept, held or else carried as written, if and only if it is in
   range; beyond it the display text still denotes it only where it is a shortest decimal.
4. `firstBeyond_not_kept`: the first integer beyond the range is shown as another one.
-/

namespace BindingGen

namespace Decimal

/-! ## Whole numerals -/

/-- `Spells cs n`: the text is a run of digits, at least one, with at most a sign before them, and
denotes this integer. -/
inductive Spells : List Char → Int → Prop
  | plain {ds : List Char} : AreDigits ds → ds ≠ [] → Spells ds (digitsValue ds)
  | plus {ds : List Char} : AreDigits ds → ds ≠ [] → Spells ('+' :: ds) (digitsValue ds)
  | minus {ds : List Char} : AreDigits ds → ds ≠ [] → Spells ('-' :: ds) (-digitsValue ds)

theorem Spells.wholeNumeral? {cs : List Char} {n : Int} (spelled : Spells cs n) :
    wholeNumeral? cs = some n := by
  cases spelled with
  | plain digits nonempty => exact (wholeNumeral?_digits digits nonempty).1
  | plus digits nonempty => exact (wholeNumeral?_digits digits nonempty).2.2
  | minus digits nonempty => exact (wholeNumeral?_digits digits nonempty).2.1

theorem splitSign_cases (cs : List Char) :
    (∃ rest, cs = '-' :: rest ∧ splitSign cs = (true, rest)) ∨
      (∃ rest, cs = '+' :: rest ∧ splitSign cs = (false, rest)) ∨ splitSign cs = (false, cs) := by
  unfold splitSign
  split
  · exact .inl ⟨_, rfl, rfl⟩
  · exact .inr (.inl ⟨_, rfl, rfl⟩)
  · exact .inr (.inr rfl)

theorem spells_of_wholeNumeral? {cs : List Char} {n : Int} (read : wholeNumeral? cs = some n) :
    Spells cs n := by
  unfold Decimal.wholeNumeral? at read
  dsimp only at read
  split at read
  · cases read
  · next fits =>
    rw [Bool.or_eq_true, not_or, Bool.not_eq_true, Bool.not_eq_true, List.isEmpty_eq_false_iff,
      Bool.not_eq_false', List.all_eq_true] at fits
    obtain ⟨nonempty, digits⟩ := fits
    obtain ⟨rest, rfl, parted⟩ | ⟨rest, rfl, parted⟩ | parted := splitSign_cases cs
    · rw [parted] at nonempty digits read
      cases read
      exact .minus digits nonempty
    · rw [parted] at nonempty digits read
      cases read
      exact .plus digits nonempty
    · rw [parted] at nonempty digits read
      cases read
      exact .plain digits nonempty

/-- Whole numerals are what the reader takes. -/
theorem spells_iff {cs : List Char} {n : Int} : Spells cs n ↔ wholeNumeral? cs = some n :=
  ⟨Spells.wholeNumeral?, spells_of_wholeNumeral?⟩

/-! ## Signed numerals -/

/-- `DenotesSigned cs x`: a numeral with at most a sign denotes a number. -/
def DenotesSigned (cs : List Char) (x : ℚ) : Prop :=
  ∃ magnitude, Denotes (splitSign cs).2 magnitude ∧
    x = if (splitSign cs).1 then -magnitude else magnitude

theorem Denotes.unique {cs : List Char} {x y : ℚ} (first : Denotes cs x) (second : Denotes cs y) :
    x = y := by
  obtain ⟨digits, scale, read, rfl⟩ := first
  obtain ⟨digits', scale', read', rfl⟩ := second
  cases read.symm.trans read'
  rfl

theorem denotesSigned_iff {cs rest : List Char} {negative : Bool} {magnitude x : ℚ}
    (parted : splitSign cs = (negative, rest)) (denotes : Denotes rest magnitude) :
    DenotesSigned cs x ↔ x = if negative then -magnitude else magnitude := by
  unfold DenotesSigned
  rw [parted]
  constructor
  · rintro ⟨other, denoted, equal⟩
    rw [equal, denoted.unique denotes]
  · intro equal
    exact ⟨magnitude, denotes, equal⟩

theorem scientific?_digits {ds : List Char} (digits : AreDigits ds) (nonempty : ds ≠ []) :
    scientific? ds = some (digitsValue ds, 0) := by
  have whole : splitDigits ds = (ds, []) := by
    have all := span_isDigit digits noDigit_nil
    rwa [List.append_nil] at all
  have present : ds.isEmpty = false := List.isEmpty_eq_false_iff.mpr nonempty
  simp [scientific?, whole, present, exponentPart?]

/-- A whole numeral has its sign taken off and is read as digits, like any numeral. -/
theorem Spells.split {cs : List Char} {n : Int} (spelled : Spells cs n) :
    ∃ negative ds, splitSign cs = (negative, ds) ∧ scientific? ds = some (digitsValue ds, 0) ∧
      n = if negative then -(digitsValue ds : Int) else digitsValue ds := by
  cases spelled with
  | plain digits nonempty =>
    have read := scientific?_digits digits nonempty
    exact ⟨false, _, splitSign_signed false read, read, rfl⟩
  | plus digits nonempty => exact ⟨false, _, rfl, scientific?_digits digits nonempty, rfl⟩
  | minus digits nonempty => exact ⟨true, _, rfl, scientific?_digits digits nonempty, rfl⟩

/-- A whole numeral denotes its integer and no other number. -/
theorem Spells.denotesSigned_iff {cs : List Char} {n : Int} (spelled : Spells cs n) {x : ℚ} :
    DenotesSigned cs x ↔ x = n := by
  obtain ⟨negative, ds, parted, read, rfl⟩ := spelled.split
  have denotes : Denotes ds (digitsValue ds) := ⟨_, _, read, by simp⟩
  rw [Decimal.denotesSigned_iff parted denotes]
  cases negative <;> simp

/-- The number that a value is written as: its shortest decimal with its sign. -/
def Binary64.written? : Binary64 → Option ℚ
  | .finite negative significand exponent =>
    let magnitude := if significand = 0 then 0 else (shortest significand exponent).value
    some (if negative then -magnitude else magnitude)
  | _ => none

/-- In every layout, what a written value denotes is the number it is written as. Infinities and the
value that is no number denote none. -/
theorem denotesSigned_chars_iff (layout : Layout) (x : Binary64) {q : ℚ} :
    DenotesSigned (layout.chars x) q ↔ x.written? = some q := by
  cases x with
  | nan =>
    refine iff_of_false ?_ nofun
    rintro ⟨_, ⟨_, _, read, -⟩, -⟩
    cases read
  | infinite negative =>
    refine iff_of_false ?_ nofun
    rintro ⟨_, ⟨_, _, read, -⟩, -⟩
    cases negative <;> cases read
  | finite negative significand exponent =>
    have denotes : Denotes (if significand = 0 then ['0', '.', '0']
        else layout.decimalText (shortest significand exponent))
        (if significand = 0 then 0 else (shortest significand exponent).value) := by
      split
      · exact ⟨0, -1, rfl, by simp⟩
      · exact denotes_decimalText layout _
    obtain ⟨digits, scale, read, equal⟩ := denotes
    show DenotesSigned ((if negative then ['-'] else []) ++ _) q ↔ _
    rw [denotesSigned_iff (splitSign_signed negative read) ⟨digits, scale, read, equal⟩]
    simp [Binary64.written?, eq_comm]

/-! ## Integers as doubles -/

/-- The double nearest to an integer. -/
def nearest (n : Int) : Binary64 := .ofDecimal (decide (n < 0)) n.natAbs 0

/-- As a decimal numeral, a whole numeral reads as the double nearest to its integer. -/
theorem Spells.decimalNumeral? {cs : List Char} {n : Int} (spelled : Spells cs n)
    (nonzero : n ≠ 0) : decimalNumeral? cs = some (nearest n) := by
  obtain ⟨negative, ds, parted, read, rfl⟩ := spelled.split
  unfold Decimal.decimalNumeral? nearest
  rw [parted]
  dsimp only
  rw [read]
  cases negative with
  | false =>
    have sign : decide ((digitsValue ds : Int) < 0) = false := decide_eq_false (by omega)
    rw [if_neg Bool.false_ne_true, sign, Int.natAbs_natCast]
  | true =>
    rw [if_pos rfl] at nonzero ⊢
    have sign : decide (-(digitsValue ds : Int) < 0) = true := decide_eq_true (by omega)
    rw [sign, Int.natAbs_neg, Int.natAbs_natCast]

end Decimal

namespace Literal

open Decimal (Spells DenotesSigned nearest)

/-! ## Integers that are kept -/

/-- A whole numeral is held as its integer within the range and as the nearest double beyond. -/
theorem ofText_of_spells {s : String} {n : Int} (spelled : Spells (Text.trimChars s.toList) n) :
    ofText s = if InRange n then .int n else .float (nearest n) := by
  have read := spelled.wholeNumeral?
  unfold ofText
  split
  · next inRange =>
    refine ofTrimmed_of_integer? ?_
    rw [integer?, read, Option.filter_some, decide_eq_true inRange, if_pos rfl]
  · next beyond =>
    have nonzero : n ≠ 0 := by
      rintro rfl
      exact beyond (by decide)
    refine ofTrimmed_of_decimalNumeral? ?_ (spelled.decimalNumeral? nonzero)
    rw [integer?, read, Option.filter_some, decide_eq_false beyond]
    rfl

/-- `KeepsInteger s n`: reading the text keeps the integer that it denotes. It is held if it is in
range, the text is carried as written if it is not, and the display text denotes the same
integer. -/
structure KeepsInteger (s : String) (n : Int) : Prop where
  held : InRange n → ofText s = .int n
  carried : ¬ InRange n → ofText s = .other (Text.trim s)
  shown : DenotesSigned (ofText s).text.toList n

theorem denotesSigned_text_int (n : Int) : DenotesSigned (text (.int n)).toList n := by
  have spelled : Spells (toString n).toList n := Decimal.spells_iff.mpr
    (Decimal.wholeNumeral?_toString n)
  exact spelled.denotesSigned_iff.mpr rfl

theorem denotesSigned_text_float {x : Decimal.Binary64} {q : ℚ} :
    DenotesSigned (text (.float x)).toList q ↔ x.written? = some q := by
  rw [toList_text_float, Decimal.denotesSigned_chars_iff]

/-- The display text of a float is no whole numeral. -/
theorem not_spells_text_float (x : Decimal.Binary64) (m : Int) :
    ¬ Spells (text (.float x)).toList m := by
  rw [toList_text_float, Decimal.spells_iff, Decimal.wholeNumeral?_chars]
  exact nofun

/-- A text of a whole numeral keeps its integer if and only if the integer is in range. Beyond the
range the literal is the double nearest to the integer, never the text as written. Its display text
is no whole numeral any more, and denotes the integer only where this is what the double is written
as. -/
theorem keepsInteger_iff {s : String} {n : Int} (spelled : Spells (Text.trimChars s.toList) n) :
    (KeepsInteger s n ↔ InRange n) ∧
      (¬ InRange n → ofText s = .float (nearest n) ∧
        (∀ m, ¬ Spells (ofText s).text.toList m) ∧
        (DenotesSigned (ofText s).text.toList n ↔ (nearest n).written? = some (n : ℚ))) := by
  have read := ofText_of_spells spelled
  constructor
  · constructor
    · intro keeps
      by_contra beyond
      rw [if_neg beyond, keeps.carried beyond] at read
      cases read
    · intro inRange
      rw [if_pos inRange] at read
      refine ⟨fun _ => read, fun beyond => absurd inRange beyond, ?_⟩
      rw [read]
      exact denotesSigned_text_int n
  · intro beyond
    rw [if_neg beyond] at read
    rw [read]
    exact ⟨rfl, not_spells_text_float _, denotesSigned_text_float⟩

/-- The least integer in the range is kept, with zeros before it as well. A power of ten far beyond
the range becomes a double, which happens to be written as this power. -/
theorem leastInteger_kept :
    KeepsInteger " -0009223372036854775808\n" (-9223372036854775808) ∧
      ofText "+10000000000000000000000" = .float (nearest 10000000000000000000000) ∧
      DenotesSigned (ofText "+10000000000000000000000").text.toList 10000000000000000000000 := by
  have least : Spells (Text.trimChars " -0009223372036854775808\n".toList)
      (-9223372036854775808) := Decimal.spells_iff.mpr (by decide +kernel)
  have power : Spells (Text.trimChars "+10000000000000000000000".toList)
      10000000000000000000000 := Decimal.spells_iff.mpr (by decide +kernel)
  have double : nearest 10000000000000000000000 = .finite false 4768371582031250 21 := by
    decide +kernel
  have shortest : Decimal.shortest 4768371582031250 21 = ⟨1, 22⟩ := by decide +kernel
  have written : (nearest 10000000000000000000000).written? =
      some ((10000000000000000000000 : Int) : ℚ) := by
    rw [double]
    norm_num [Decimal.Binary64.written?, shortest, Decimal.Scientific.value]
  obtain ⟨read, -, shown⟩ := (keepsInteger_iff power).2 (by decide)
  exact ⟨(keepsInteger_iff least).1.mpr (by decide), read, by exact_mod_cast shown.mpr written⟩

/-- The first integer beyond the range is neither held nor carried as written: it is shown as the
multiple of a thousand next to it. -/
theorem firstBeyond_not_kept :
    Spells (Text.trimChars "9223372036854775808".toList) 9223372036854775808 ∧
      (ofText "9223372036854775808").text = "9.223372036854776e18" ∧
      ¬ DenotesSigned (ofText "9223372036854775808").text.toList 9223372036854775808 ∧
      ¬ KeepsInteger "9223372036854775808" 9223372036854775808 := by
  have spelled : Spells (Text.trimChars "9223372036854775808".toList) 9223372036854775808 :=
    Decimal.spells_iff.mpr (by decide +kernel)
  have shown : (ofText "9223372036854775808").text = "9.223372036854776e18" := by decide +kernel
  have other : ¬ DenotesSigned (ofText "9223372036854775808").text.toList
      9223372036854775808 := by
    rw [shown]
    have read : Decimal.scientific? "9.223372036854776e18".toList = some (9223372036854776, 3) := by
      decide +kernel
    have unsigned : Decimal.splitSign "9.223372036854776e18".toList =
        (false, "9.223372036854776e18".toList) := Decimal.splitSign_signed false read
    rw [Decimal.denotesSigned_iff unsigned ⟨_, _, read, rfl⟩]
    norm_num
  exact ⟨spelled, shown, other, fun keeps => other (by exact_mod_cast keeps.shown)⟩

end Literal

end BindingGen
