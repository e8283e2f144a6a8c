import BindingGen.Json.Value
import BindingGen.Proofs.Decimal.Numeral
import BindingGen.Proofs.Json.Text

/-!
# Values read back

A value is read where another part of the text follows it, so its reader has to stop at its end.
What may follow is a comma or a closer (`AtEnd`), which no number goes on with; and what a value
starts with tells it apart from `null` and from the end of a list (`Opens`). `ReadsBack` states both
for one value, and there is one lemma for each kind of value.

Results:
1. `readsBack_string`, `readsBack_boolean`, `readsBack_unsigned32`, `readsBack_variant`: values
   without parts.
2. `readsBack_optional`, `readsBack_list`: values made of others.
-/

namespace BindingGen.Json

/-- A text at which a value has ended: nothing follows, or a comma or a closer does. -/
def AtEnd (rest : List Char) : Prop :=
  ∀ c tail, rest = c :: tail → c = ',' ∨ c = ']' ∨ c = '\x7d'

/-- The first character of a value: no space, and neither that of `null` nor the end of a list. -/
def Opens (c : Char) : Prop := isSpace c = false ∧ c ≠ 'n' ∧ c ≠ ']'

instance (c : Char) : Decidable (Opens c) := inferInstanceAs (Decidable (_ ∧ _ ∧ _))

/-- `ReadsBack reader written value`: the reader takes the written text off the start of a text and
gives the value, under any bound that covers the written text. -/
structure ReadsBack {α : Type} (reader : Nat → Reader α) (written : List Char) (value : α) :
    Prop where
  opens : ∃ c tail, written = c :: tail ∧ Opens c
  reads : ∀ {limit : Nat} {rest : List Char}, written.length < limit → AtEnd rest →
    reader limit (written ++ rest) = .ok (value, rest)

theorem atEnd_nil : AtEnd [] := by
  intro c tail equal
  cases equal

theorem atEnd_cons {c : Char} (ends : c = ',' ∨ c = ']' ∨ c = '\x7d') (tail : List Char) :
    AtEnd (c :: tail) := by
  intro d rest equal
  cases equal
  exact ends

theorem skipSpaces_cons {c : Char} (noSpace : isSpace c = false) (tail : List Char) :
    skipSpaces (c :: tail) = c :: tail := by
  rw [skipSpaces, List.dropWhile_cons, noSpace, if_neg Bool.false_ne_true]

theorem ReadsBack.map {α β : Type} {reader : Nat → Reader α} {written : List Char} {value : α}
    (back : ReadsBack reader written value) (f : α → β) :
    ReadsBack (fun limit => (reader limit).map f) written (f value) where
  opens := back.opens
  reads := by
    intro limit rest enough ended
    rw [Reader.map, back.reads enough ended]

/-! ## Values without parts -/

/-- A string is read from after its quote. -/
theorem string_of_written (s : String) {limit : Nat} (enough : (writtenString s).length < limit)
    (rest : List Char) : ∃ text, writtenString s ++ rest = '"' :: text ∧
      string limit text = .ok (s, rest) := by
  have length := length_le_length_written s.toList
  have whole : (writtenString s).length = (s.toList.flatMap writtenChar).length + 2 := by
    rw [writtenString, List.length_append, List.length_cons, List.length_singleton]
  refine ⟨s.toList.flatMap writtenChar ++ '"' :: rest, ?_, string_written (by omega) rest⟩
  rw [writtenString, List.append_assoc, List.cons_append]
  rfl

theorem readsBack_string (wanted : Wanted) (s : String) :
    ReadsBack (fun limit => stringValue limit wanted) (writtenString s) s where
  opens := ⟨'"', _, rfl, by decide⟩
  reads := by
    intro limit rest enough _
    obtain ⟨text, shape, read⟩ := string_of_written s enough rest
    rw [shape]
    exact read

theorem readsBack_variant {α : Type} {variants : List (String × α)} {name : String} {value : α}
    (known : variants.lookup name = some value) :
    ReadsBack (fun limit => variant limit variants) (writtenString name) value where
  opens := ⟨'"', _, rfl, by decide⟩
  reads := by
    intro limit rest enough _
    obtain ⟨text, shape, read⟩ := string_of_written name enough rest
    have named : variantNamed variants name = .ok value := by rw [variantNamed, known]
    have start : skipSpaces ('"' :: text) = '"' :: text := skipSpaces_cons (by decide) text
    rw [shape, variant, start]
    show (string limit text >>= _) = _
    rw [read]
    show (variantNamed variants name >>= _) = _
    rw [named]
    rfl

theorem readsBack_boolean (b : Bool) : ReadsBack boolean (writtenBool b) b where
  opens := by
    cases b
    · exact ⟨'f', _, rfl, by decide⟩
    · exact ⟨'t', _, rfl, by decide⟩
  reads := by
    intro limit rest _ _
    cases b <;> rfl

/-! ## Numbers -/

/-- Only zero is written with a leading zero. -/
theorem toDigits_head {n : Nat} (positive : 0 < n) : (Nat.toDigits 10 n).head? ≠ some '0' := by
  induction n using Nat.strongRecOn with
  | _ n ih =>
    rcases Nat.lt_or_ge n 10 with digit | more
    · have digits : ∀ k < 10, 0 < k → (Nat.toDigits 10 k).head? ≠ some '0' := by decide
      exact digits n digit positive
    · rw [Nat.toDigits_of_base_le (by decide) more,
        List.head?_append_of_ne_nil _ Nat.toDigits_ne_nil]
      exact ih (n / 10) (by omega) (by omega)

/-- Digits whose number fits into a word are all gathered. -/
theorem gather_digits {ds : List Char} {digits : Nat}
    (fits : Nat.ofDigitChars 10 ds digits < Number.wordBound) :
    Number.gather digits ds = (Nat.ofDigitChars 10 ds digits, []) := by
  induction ds generalizing digits with
  | nil => rfl
  | cons d ds ih =>
    rw [Nat.ofDigitChars_cons] at fits ⊢
    have next : 10 * digits + Number.digitValue d < Number.wordBound := by
      refine Nat.lt_of_le_of_lt ?_ fits
      rw [Nat.ofDigitChars_eq_ofDigitChars_zero]
      have power : 0 < 10 ^ ds.length := Nat.pow_pos (by decide)
      exact Nat.le_add_right_of_le (Nat.le_mul_of_pos_left _ power)
    rw [Number.gather, if_pos next]
    exact ih fits

/-- The digits of a number that fits into a word read back as this integer. -/
theorem read_toDigits {n : Nat} (fits : n < Number.wordBound) {rest : List Char}
    (ended : AtEnd rest) : Number.read (writtenNat n ++ rest) = .ok (.integer n, rest) := by
  have digits := Decimal.areDigits_toDigits n
  -- No digit, point or exponent may follow, so that the number ends where its digits do.
  have stops : Decimal.NoDigit rest := by
    intro c tail equal
    rcases ended c tail equal with rfl | rfl | rfl <;> decide
  have split : Number.splitDigits (writtenNat n ++ rest) = (Nat.toDigits 10 n, rest) :=
    Decimal.span_isDigit digits stops
  have value : Nat.ofDigitChars 10 (Nat.toDigits 10 n) 0 = n := Nat.ofDigitChars_ten_toDigits
  have gathered : Number.gather 0 (Nat.toDigits 10 n) = (n, []) := by
    rw [gather_digits (value.symm ▸ fits), value]
  have present : (Nat.toDigits 10 n).isEmpty = false :=
    List.isEmpty_eq_false_iff.mpr Nat.toDigits_ne_nil
  obtain ⟨c, tail, shape⟩ := List.exists_cons_of_ne_nil (Nat.toDigits_ne_nil (b := 10) (n := n))
  have digit : c.isDigit = true := digits c (shape ▸ List.mem_cons_self)
  have noLead : ¬ (c == '0' ∧ 1 < (Nat.toDigits 10 n).length) := by
    rintro ⟨zero, long⟩
    rw [beq_iff_eq] at zero
    have positive : 0 < n := by
      rcases Nat.eq_zero_or_pos n with rfl | positive
      · exact absurd long (by decide)
      · exact positive
    exact toDigits_head positive (by rw [shape, zero]; rfl)
  have text : writtenNat n ++ rest = c :: (tail ++ rest) := by
    rw [writtenNat, shape]
    rfl
  rw [text] at split ⊢
  have unsigned : Number.unsigned false (c :: (tail ++ rest)) = .ok (.integer n, rest) := by
    rw [Number.unsigned]
    dsimp only
    rw [split]
    dsimp only
    rw [present, if_neg Bool.false_ne_true, if_neg noLead, gathered]
    cases rest with
    | nil => rfl
    | cons d rest => rcases ended d rest rfl with rfl | rfl | rfl <;> rfl
  unfold Number.read
  split
  · next equal =>
    cases equal
    cases digit
  · exact unsigned

theorem readsBack_unsigned32 {n : Nat} (fits : n < Nat.pow 2 32) :
    ReadsBack unsigned32 (writtenNat n) n := by
  obtain ⟨c, tail, shape⟩ := List.exists_cons_of_ne_nil (Nat.toDigits_ne_nil (b := 10) (n := n))
  have digit : c.isDigit = true :=
    Decimal.areDigits_toDigits n c (shape ▸ List.mem_cons_self)
  have opens : Opens c := by
    refine ⟨?_, ?_, ?_⟩
    · unfold isSpace
      simp only [Bool.or_eq_false_iff, beq_eq_false_iff_ne]
      refine ⟨⟨⟨?_, ?_⟩, ?_⟩, ?_⟩
      all_goals
        rintro rfl
        cases digit
    all_goals
      rintro rfl
      cases digit
  refine ⟨⟨c, tail, shape, opens⟩, ?_⟩
  intro limit rest _ ended
  have fitsWord : n < Number.wordBound := Nat.lt_trans fits (by decide)
  have read := read_toDigits fitsWord ended
  have text : writtenNat n ++ rest = c :: (tail ++ rest) := by
    rw [writtenNat, shape]
    rfl
  have inRange : (0 : Int) ≤ n ∧ (n : Int) < (Nat.pow 2 32 : Nat) := by
    constructor
    · exact Int.natCast_nonneg n
    · exact Int.ofNat_lt.mpr fits
  rw [text] at read ⊢
  rw [unsigned32, skipSpaces_cons opens.1]
  dsimp only
  rw [digit, Bool.or_true, if_pos rfl, read]
  dsimp only
  rw [if_pos inRange, Int.toNat_natCast]

/-! ## Values made of others -/

theorem readsBack_optional {α : Type} {reader : Nat → Reader α} {written : List Char} {value : α}
    (back : ReadsBack reader written value) :
    ReadsBack (fun limit => optional (reader limit)) written (some value) where
  opens := back.opens
  reads := by
    intro limit rest enough ended
    obtain ⟨c, tail, shape, noSpace, notNull, _⟩ := back.opens
    have read := back.reads enough ended
    rw [shape, List.cons_append] at read ⊢
    rw [optional, skipSpaces_cons noSpace]
    split
    · next equal => exact absurd (List.cons.inj equal).1 notNull
    · rw [Reader.map, read]

/-- Parts with a comma between any two of them, and with one before the first too where others have
come before. -/
def separated : Bool → List (List Char) → List Char
  | _, [] => []
  | first, part :: parts => (if first then [] else [',']) ++ part ++ separated false parts

theorem intercalate_eq_separated (parts : List (List Char)) :
    [','].intercalate parts = separated true parts := by
  have later (part : List Char) (parts : List (List Char)) :
      [','].intercalate (part :: parts) = part ++ separated false parts := by
    induction parts generalizing part with
    | nil => rw [List.intercalate_singleton, separated, List.append_nil]
    | cons next parts ih =>
      rw [List.intercalate_cons_cons, ih, separated, if_neg Bool.false_ne_true]
      simp only [List.append_assoc]
  cases parts with
  | nil => rfl
  | cons part parts => exact later part parts

/-- After a part comes the comma before the next one or the closer. -/
theorem atEnd_separated (parts : List (List Char)) (closer : Char)
    (closes : closer = ']' ∨ closer = '\x7d') (rest : List Char) :
    AtEnd (separated false parts ++ closer :: rest) := by
  cases parts with
  | nil => exact atEnd_cons (.inr closes) rest
  | cons part parts => exact atEnd_cons (.inl rfl) _

/-- The next element stands after the comma that is due. -/
theorem nextElement_separator (first : Bool) {c : Char} (opens : Opens c) (text : List Char) :
    nextElement first ((if first then [] else [',']) ++ c :: text) = .ok (true, c :: text) := by
  obtain ⟨noSpace, _, notClosed⟩ := opens
  have start := skipSpaces_cons noSpace text
  cases first
  · have comma : skipSpaces (',' :: c :: text) = ',' :: c :: text := skipSpaces_cons (by decide) _
    show nextElement false (',' :: c :: text) = _
    rw [nextElement, comma]
    split
    · next equal => cases equal
    · next equal => cases equal
    · next equal =>
      cases equal
      rw [if_neg Bool.false_ne_true, beq_self_eq_true, if_pos rfl, start]
      split
      · next equal => cases equal
      · next equal => exact absurd (List.cons.inj equal).1 notClosed
      · rfl
  · show nextElement true (c :: text) = _
    rw [nextElement, start]
    split
    · next equal => cases equal
    · next equal => exact absurd (List.cons.inj equal).1 notClosed
    · next equal => rw [if_pos rfl, equal]

theorem elements_written {α : Type} {element : Nat → Reader α} {write : α → List Char}
    {values : List α} (back : ∀ x ∈ values, ReadsBack element (write x) x) {limit steps : Nat}
    (enough : values.length < steps) (short : ∀ x ∈ values, (write x).length < limit)
    (before : List α) (rest : List Char) :
    elements (element limit) steps before
      (separated before.isEmpty (values.map write) ++ ']' :: rest) =
        .ok (before.reverse ++ values, rest) := by
  induction values generalizing steps before with
  | nil =>
    obtain ⟨steps, rfl⟩ := Nat.exists_eq_add_one.mpr enough
    have closed : nextElement before.isEmpty (']' :: rest) = .ok (false, ']' :: rest) := by
      cases before <;> rfl
    show elements (element limit) (steps + 1) before (']' :: rest) = _
    rw [elements, closed, List.append_nil]
    rfl
  | cons x values ih =>
    -- A comma precedes the element unless it is the first; what follows it ends it.
    obtain ⟨steps, rfl⟩ := Nat.exists_eq_add_one.mpr (Nat.zero_lt_of_lt enough)
    obtain ⟨backFirst, backRest⟩ := List.forall_mem_cons.mp back
    obtain ⟨shortFirst, shortRest⟩ := List.forall_mem_cons.mp short
    obtain ⟨c, tail, shape, opens⟩ := backFirst.opens
    have read := backFirst.reads shortFirst
      (atEnd_separated (values.map write) ']' (.inl rfl) rest)
    have next := nextElement_separator before.isEmpty opens
      (tail ++ (separated false (values.map write) ++ ']' :: rest))
    rw [← List.cons_append, ← shape] at next
    rw [List.map_cons, separated, List.append_assoc, List.append_assoc, elements, next]
    dsimp only
    rw [read]
    dsimp only
    have tailRead := ih backRest (Nat.lt_of_succ_lt_succ enough) shortRest (x :: before)
    rw [List.reverse_cons, List.append_assoc] at tailRead
    exact tailRead

/-- There is at most one part more than there are commas. -/
theorem length_le_length_separated (parts : List (List Char)) :
    parts.length ≤ (separated true parts).length + 1 := by
  have commas (parts : List (List Char)) : parts.length ≤ (separated false parts).length := by
    induction parts with
    | nil => exact Nat.le_refl 0
    | cons part parts ih =>
      rw [separated, List.length_append, List.length_append, if_neg Bool.false_ne_true,
        List.length_cons, List.length_singleton]
      omega
  cases parts with
  | nil => exact Nat.zero_le _
  | cons part parts =>
    have := commas parts
    rw [separated, List.length_append, List.length_append, List.length_cons]
    omega

theorem length_le_of_mem_separated {part : List Char} {parts : List (List Char)}
    (member : part ∈ parts) (first : Bool) : part.length ≤ (separated first parts).length := by
  induction parts generalizing first with
  | nil => cases member
  | cons other parts ih =>
    rw [separated, List.length_append, List.length_append]
    rcases List.mem_cons.mp member with rfl | later
    · omega
    · have := ih later false
      omega

theorem readsBack_list {α : Type} {element : Nat → Reader α} {write : α → List Char}
    {values : List α} (back : ∀ x ∈ values, ReadsBack element (write x) x) :
    ReadsBack (fun limit => list limit (element limit)) (writtenList (values.map write))
      values where
  opens := ⟨'[', _, rfl, by decide⟩
  reads := by
    intro limit rest enough _
    have shape : writtenList (values.map write) =
        '[' :: (separated true (values.map write) ++ [']']) := by
      rw [writtenList, intercalate_eq_separated]
      rfl
    have length := length_le_length_separated (values.map write)
    rw [shape, List.length_cons, List.length_append, List.length_singleton] at enough
    rw [List.length_map] at length
    have short : ∀ x ∈ values, (write x).length < limit := by
      intro x member
      have := length_le_of_mem_separated (List.mem_map_of_mem (f := write) member) true
      omega
    have start (text : List Char) : skipSpaces ('[' :: text) = '[' :: text :=
      skipSpaces_cons (by decide) text
    rw [shape, List.cons_append, list, start, List.append_assoc]
    exact elements_written back (by omega) short [] rest

end BindingGen.Json
