import BindingGen.Decimal.Layout
import BindingGen.Decimal.Numeral
import BindingGen.Proofs.Decimal.Shortest

/-!
# Numerals read back

A written value is a numeral, with its point or its power of ten wherever the layout puts them, and
the numeral denotes the shortest decimal of the value exactly. Reading it therefore comes to
rounding that decimal, which gives the value again.

Results:
1. `decimalNumeral?_chars`: in every layout, a value of the format reads back from its text.
2. `canonical_of_decimalNumeral?`: what a text reads as is a value of the format.
3. `wholeNumeral?_chars`: no written value could be taken for an integer.
-/

namespace BindingGen.Decimal

/-! ## Digits -/

/-- A sequence of digits, possibly empty. -/
abbrev AreDigits (ds : List Char) : Prop := ∀ c ∈ ds, c.isDigit = true

/-- A text in which no digits go on from here. -/
def NoDigit (rest : List Char) : Prop := ∀ c tail, rest = c :: tail → c.isDigit = false

theorem noDigit_nil : NoDigit [] := by
  intro c tail equal
  cases equal

theorem noDigit_cons {c : Char} {tail : List Char} (other : c.isDigit = false) :
    NoDigit (c :: tail) := by
  intro d rest equal
  cases equal
  exact other

theorem areDigits_toDigits (n : Nat) : AreDigits (Nat.toDigits 10 n) :=
  fun _ member => Nat.isDigit_of_mem_toDigits (by decide) (by decide) member

theorem areDigits_zeros (count : Nat) : AreDigits (List.replicate count '0') := by
  intro c member
  rw [List.eq_of_mem_replicate member]
  decide

/-- Digits are taken off a text as far as they go. -/
theorem span_isDigit {ds rest : List Char} (digits : AreDigits ds) (stops : NoDigit rest) :
    (ds ++ rest).span Char.isDigit = (ds, rest) := by
  have drop : rest.dropWhile Char.isDigit = rest := by
    cases rest with
    | nil => rfl
    | cons c tail => rw [List.dropWhile_cons, stops c tail rfl, if_neg Bool.false_ne_true]
  have take : rest.takeWhile Char.isDigit = [] := by
    cases rest with
    | nil => rfl
    | cons c tail => rw [List.takeWhile_cons, stops c tail rfl, if_neg Bool.false_ne_true]
  rw [List.span_eq_takeWhile_dropWhile, List.takeWhile_append_of_pos digits,
    List.dropWhile_append_of_pos digits, take, drop, List.append_nil]

theorem digitsValue_toDigits (n : Nat) : digitsValue (Nat.toDigits 10 n) = n :=
  Nat.ofDigitChars_ten_toDigits

theorem digitsValue_append (a b : List Char) :
    digitsValue (a ++ b) = digitsValue a * 10 ^ b.length + digitsValue b := by
  rw [digitsValue, Nat.ofDigitChars_append, Nat.ofDigitChars_eq_ofDigitChars_zero, Nat.mul_comm]
  rfl

theorem digitsValue_zeros (count : Nat) : digitsValue (List.replicate count '0') = 0 := by
  rw [digitsValue, Nat.ofDigitChars_replicate_zero, Nat.mul_zero]

theorem areDigits_zero : AreDigits ['0'] := List.forall_mem_singleton.mpr rfl

/-! ## Whole numerals -/

/-- A text that starts with a digit has no sign. -/
theorem splitSign_digit {c : Char} (digit : c.isDigit = true) (tail : List Char) :
    splitSign (c :: tail) = (false, c :: tail) := by
  unfold splitSign
  split
  · next equal =>
    cases equal
    cases digit
  · next equal =>
    cases equal
    cases digit
  · rfl

/-- A whole numeral may have a sign. -/
theorem wholeNumeral?_digits {ds : List Char} (digits : AreDigits ds) (nonempty : ds ≠ []) :
    wholeNumeral? ds = some (digitsValue ds : Int) ∧
      wholeNumeral? ('-' :: ds) = some (-(digitsValue ds : Int)) ∧
      wholeNumeral? ('+' :: ds) = some (digitsValue ds : Int) := by
  have all : ds.all Char.isDigit = true := List.all_eq_true.mpr digits
  have present : ds.isEmpty = false := List.isEmpty_eq_false_iff.mpr nonempty
  have plain : splitSign ds = (false, ds) := by
    obtain ⟨c, tail, rfl⟩ := List.exists_cons_of_ne_nil nonempty
    exact splitSign_digit (digits c List.mem_cons_self) tail
  refine ⟨?_, ?_, ?_⟩
  · simp only [wholeNumeral?, plain, present, all]
    rfl
  · simp only [wholeNumeral?, splitSign, present, all]
    rfl
  · simp only [wholeNumeral?, splitSign, present, all]
    rfl

/-- An integer is written as a whole numeral of it. -/
theorem wholeNumeral?_toString (n : Int) : wholeNumeral? (toString n).toList = some n := by
  have digits (k : Nat) := wholeNumeral?_digits (areDigits_toDigits k) Nat.toDigits_ne_nil
  cases n with
  | ofNat k =>
    have chars : (toString (Int.ofNat k)).toList = Nat.toDigits 10 k := String.toList_ofList
    rw [chars, (digits k).1, digitsValue_toDigits]
    rfl
  | negSucc k =>
    have chars : (toString (Int.negSucc k)).toList = '-' :: Nat.toDigits 10 (k + 1) :=
      (String.toList_append).trans (congrArg ('-' :: ·) String.toList_ofList)
    rw [chars, (digits (k + 1)).2.1, digitsValue_toDigits]
    rfl

/-- A whole numeral consists of digits and signs. -/
theorem isDigit_or_sign_of_wholeNumeral? {cs : List Char} {n : Int}
    (read : wholeNumeral? cs = some n) : ∀ c ∈ cs, c.isDigit = true ∨ c = '-' ∨ c = '+' := by
  have digits : ∀ c ∈ (splitSign cs).2, c.isDigit = true := by
    rw [wholeNumeral?] at read
    dsimp only at read
    split at read
    · cases read
    · next fits =>
      rw [Bool.or_eq_true, not_or] at fits
      simpa using fits.2
  intro c member
  unfold splitSign at digits
  split at digits
  · rcases List.mem_cons.mp member with rfl | inRest
    · exact .inr (.inl rfl)
    · exact .inl (digits c inRest)
  · rcases List.mem_cons.mp member with rfl | inRest
    · exact .inr (.inr rfl)
    · exact .inl (digits c inRest)
  · exact .inl (digits c member)

theorem wholeNumeral?_exponentText (layout : Layout) (power : Int) :
    wholeNumeral? (layout.exponentText power) = some power := by
  rw [Layout.exponentText]
  generalize padding : List.replicate _ '0' = zeros
  have digits : AreDigits (zeros ++ Nat.toDigits 10 power.natAbs) := by
    subst padding
    exact List.forall_mem_append.mpr ⟨areDigits_zeros _, areDigits_toDigits _⟩
  have value : digitsValue (zeros ++ Nat.toDigits 10 power.natAbs) = power.natAbs := by
    subst padding
    rw [digitsValue_append, digitsValue_zeros, digitsValue_toDigits]
    omega
  have nonempty : zeros ++ Nat.toDigits 10 power.natAbs ≠ [] :=
    List.append_ne_nil_of_right_ne_nil _ Nat.toDigits_ne_nil
  obtain ⟨plain, minus, plus⟩ := wholeNumeral?_digits digits nonempty
  rw [value] at plain minus plus
  rw [List.append_assoc]
  split
  · next negative =>
    refine minus.trans ?_
    congr 1
    omega
  · next positive =>
    have same : (power.natAbs : Int) = power := by omega
    rw [same] at plain plus
    split
    · exact plus
    · exact plain

/-! ## Decimal numerals -/

theorem scientific?_point (whole places rest : List Char) {power : Int}
    (digits : AreDigits whole) (digits' : AreDigits places) (nonempty : whole ≠ [])
    (stops : NoDigit rest) (exponent : exponentPart? rest = some power) :
    scientific? (whole ++ '.' :: (places ++ rest)) =
      some (digitsValue (whole ++ places), power - places.length) := by
  have first : splitDigits (whole ++ '.' :: (places ++ rest)) = (whole, '.' :: (places ++ rest)) :=
    span_isDigit digits (noDigit_cons (by decide))
  have second : splitDigits (places ++ rest) = (places, rest) := span_isDigit digits' stops
  have present : whole.isEmpty = false := List.isEmpty_eq_false_iff.mpr nonempty
  simp only [scientific?, first, second, present, exponent, Bool.false_and, Bool.false_eq_true,
    if_false, Option.map_some]

theorem scientific?_plain {whole rest : List Char} {power : Int} (digits : AreDigits whole)
    (nonempty : whole ≠ []) (exponent : exponentPart? ('e' :: rest) = some power) :
    scientific? (whole ++ 'e' :: rest) = some (digitsValue whole, power) := by
  have first : splitDigits (whole ++ 'e' :: rest) = (whole, 'e' :: rest) :=
    span_isDigit digits (noDigit_cons (by decide))
  have present : whole.isEmpty = false := List.isEmpty_eq_false_iff.mpr nonempty
  simp [scientific?, first, present, exponent]

/-- `Denotes cs x`: an unsigned numeral denotes a number. -/
def Denotes (cs : List Char) (x : ℚ) : Prop :=
  ∃ digits scale, scientific? cs = some (digits, scale) ∧ (digits : ℚ) * 10 ^ scale = x

/-- Wherever the point stands, the digits and the zeros around them denote the same multiple. -/
theorem denotes_positional {ds : List Char} (digits : AreDigits ds) (nonempty : ds ≠ [])
    (places : Int) :
    Denotes (Layout.positional ds places) (digitsValue ds * 10 ^ (places - ds.length)) := by
  unfold Layout.positional
  split
  · next fraction =>
    -- Zeros stand between the point and the digits.
    have read := scientific?_point ['0'] _ [] areDigits_zero
      (List.forall_mem_append.mpr ⟨areDigits_zeros (-places).toNat, digits⟩) (by decide)
      noDigit_nil rfl
    rw [List.append_nil] at read
    refine ⟨_, _, read, ?_⟩
    have scale : (0 : Int) - (List.replicate (-places).toNat '0' ++ ds).length =
        places - ds.length := by
      rw [List.length_append, List.length_replicate]
      omega
    have zero : digitsValue ['0'] = 0 := rfl
    rw [scale, digitsValue_append, digitsValue_append, digitsValue_zeros, zero]
    simp
  · next positive =>
    dsimp only
    rcases Nat.lt_or_ge places.toNat ds.length with inside | beyond
    · -- The point stands among the digits.
      have padding : places.toNat - ds.length = 0 := by omega
      have part : (ds.drop places.toNat).isEmpty = false := by
        rw [List.isEmpty_eq_false_iff, ne_eq, List.drop_eq_nil_iff]
        omega
      have whole : ds.take places.toNat ≠ [] := by
        rw [ne_eq, List.take_eq_nil_iff]
        rintro (none | none)
        · omega
        · exact nonempty none
      have before : AreDigits (ds.take places.toNat) :=
        fun c member => digits c (List.mem_of_mem_take member)
      have after : AreDigits (ds.drop places.toNat) :=
        fun c member => digits c (List.mem_of_mem_drop member)
      have read := scientific?_point _ _ [] before after whole noDigit_nil rfl
      rw [List.append_nil, List.take_append_drop] at read
      rw [part, padding, if_neg Bool.false_ne_true, List.replicate_zero, List.append_nil]
      refine ⟨_, _, read, ?_⟩
      congr 2
      rw [List.length_drop]
      omega
    · -- Zeros stand between the digits and the point.
      have part : ds.drop places.toNat = [] := List.drop_eq_nil_iff.mpr beyond
      have read := scientific?_point (ds ++ List.replicate (places.toNat - ds.length) '0') ['0'] []
        (List.forall_mem_append.mpr ⟨digits, areDigits_zeros _⟩) areDigits_zero
        (List.append_ne_nil_of_left_ne_nil nonempty _) noDigit_nil rfl
      rw [part, List.isEmpty_nil, if_pos rfl, List.take_of_length_le beyond]
      refine ⟨_, _, read, ?_⟩
      have scale : places - ds.length = (places.toNat - ds.length : Nat) := by omega
      rw [digitsValue_append, digitsValue_append, digitsValue_zeros, scale, zpow_natCast,
        List.length_replicate]
      have zero : digitsValue ['0'] = 0 := rfl
      rw [zero]
      norm_num
      ring

theorem denotes_withPower (layout : Layout) {ds : List Char} (digits : AreDigits ds)
    (nonempty : ds ≠ []) (power : Int) :
    Denotes (layout.withPower ds power) (digitsValue ds * 10 ^ (power + 1 - ds.length)) := by
  have exponent : exponentPart? ('e' :: layout.exponentText power) = some power :=
    wholeNumeral?_exponentText layout power
  obtain ⟨c, part, rfl⟩ := List.exists_cons_of_ne_nil nonempty
  obtain ⟨first, rest⟩ := List.forall_mem_cons.mp digits
  have whole : AreDigits [c] := List.forall_mem_singleton.mpr first
  unfold Layout.withPower
  simp only [List.drop_one, List.tail_cons, List.take_succ_cons, List.take_zero]
  cases part with
  | nil =>
    refine ⟨_, _, scientific?_plain whole (by simp) exponent, ?_⟩
    simp
  | cons d part =>
    have read := scientific?_point _ _ _ whole rest (by simp) (noDigit_cons (by decide)) exponent
    refine ⟨_, _, read, ?_⟩
    congr 2
    simp

/-- A written decimal denotes its number, in every layout. -/
theorem denotes_decimalText (layout : Layout) (x : Scientific) :
    Denotes (layout.decimalText x) x.value := by
  have digits := areDigits_toDigits x.digits
  have nonempty : Nat.toDigits 10 x.digits ≠ [] := Nat.toDigits_ne_nil
  have scale (power : Int) (known : power = x.scale + (Nat.toDigits 10 x.digits).length - 1) :
      (digitsValue (Nat.toDigits 10 x.digits) : ℚ) *
        10 ^ (power + 1 - (Nat.toDigits 10 x.digits).length) = x.value := by
    rw [digitsValue_toDigits, Scientific.value, known]
    congr 2
    omega
  unfold Layout.decimalText
  dsimp only
  split
  · rw [← scale _ rfl]
    exact denotes_positional digits nonempty _
  · rw [← scale _ rfl]
    exact denotes_withPower layout digits nonempty _

/-! ## Doubles -/

/-- A sign stands before a numeral and is no part of it. -/
theorem splitSign_signed (negative : Bool) {cs : List Char} {digits : Nat} {scale : Int}
    (read : scientific? cs = some (digits, scale)) :
    splitSign ((if negative then ['-'] else []) ++ cs) = (negative, cs) := by
  cases negative with
  | true => rfl
  | false =>
    show splitSign cs = (false, cs)
    unfold splitSign
    split
    · cases read
    · cases read
    · rfl

/-- A sign before a numeral is the sign of its value. -/
theorem decimalNumeral?_signed (negative : Bool) {cs : List Char} {digits : Nat} {scale : Int}
    (read : scientific? cs = some (digits, scale)) :
    decimalNumeral? ((if negative then ['-'] else []) ++ cs) =
      some (.ofDecimal negative digits scale) := by
  simp only [decimalNumeral?, splitSign_signed negative read, read]

/-- A value of the format reads back from its text, in every layout. -/
theorem decimalNumeral?_chars (layout : Layout) {x : Binary64} (canonical : x.Canonical) :
    decimalNumeral? (layout.chars x) = some x := by
  cases x with
  | nan => rfl
  | infinite negative => cases negative <;> rfl
  | finite negative significand exponent =>
    show decimalNumeral? ((if negative then ['-'] else []) ++ (if significand = 0
      then ['0', '.', '0'] else layout.decimalText (shortest significand exponent))) = _
    by_cases vanishes : significand = 0
    · have least : exponent = Binary64.leastExponent := by
        rcases canonical.2.2.2 with large | least
        · rw [vanishes] at large
          exact absurd large (by decide)
        · exact least
      have read : scientific? ['0', '.', '0'] = some (0, -1) := rfl
      rw [if_pos vanishes, vanishes, least, decimalNumeral?_signed negative read]
      rfl
    · obtain ⟨digits, scale, read, denoted⟩ :=
        denotes_decimalText layout (shortest significand exponent)
      rw [if_neg vanishes, decimalNumeral?_signed negative read,
        Binary64.ofDecimal_congr negative denoted, ofDecimal_shortest negative vanishes canonical]

/-- What a decimal numeral reads as is a value of the format. -/
theorem canonical_of_decimalNumeral? {cs : List Char} {x : Binary64}
    (read : decimalNumeral? cs = some x) : x.Canonical := by
  unfold decimalNumeral? at read
  dsimp only at read
  split at read
  · cases read
    exact Binary64.canonical_ofDecimal _ _ _
  · unfold wordValue? at read
    dsimp only at read
    split at read
    · cases read
      trivial
    · split at read
      · cases read
        trivial
      · cases read

/-- A written decimal has a point or an exponent. -/
theorem point_or_exponent_mem_decimalText (layout : Layout) (x : Scientific) :
    '.' ∈ layout.decimalText x ∨ 'e' ∈ layout.decimalText x := by
  unfold Layout.decimalText
  dsimp only
  split
  · refine .inl ?_
    unfold Layout.positional
    split <;> simp
  · refine .inr ?_
    simp [Layout.withPower]

/-- No written value is a whole numeral. -/
theorem wholeNumeral?_chars (layout : Layout) (x : Binary64) :
    wholeNumeral? (layout.chars x) = none := by
  have other : ∃ c ∈ layout.chars x, c.isDigit = false ∧ c ≠ '-' ∧ c ≠ '+' := by
    cases x with
    | nan => exact ⟨'N', .head _, by decide⟩
    | infinite negative =>
      exact ⟨'i', List.mem_append_right _ (.head _), by decide⟩
    | finite negative significand exponent =>
      by_cases vanishes : significand = 0
      · refine ⟨'.', List.mem_append_right _ ?_, by decide⟩
        rw [if_pos vanishes]
        decide
      · rcases point_or_exponent_mem_decimalText layout (shortest significand exponent)
          with point | power
        · refine ⟨'.', List.mem_append_right _ ?_, by decide⟩
          rwa [if_neg vanishes]
        · refine ⟨'e', List.mem_append_right _ ?_, by decide⟩
          rwa [if_neg vanishes]
  obtain ⟨c, member, noDigit, notMinus, notPlus⟩ := other
  rw [Option.eq_none_iff_forall_ne_some]
  intro n read
  rcases isDigit_or_sign_of_wholeNumeral? read c member with digit | rfl | rfl
  · exact Bool.false_ne_true (noDigit.symm.trans digit)
  · exact notMinus rfl
  · exact notPlus rfl

end BindingGen.Decimal
