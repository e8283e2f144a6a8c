/-!
# The order of bytes

Strings are compared by their characters. `bytes_lt_iff` shows that this is the order of their
bytes in UTF-8: at the first place where two texts differ, the smaller character has the smaller
byte at the first place where the two encodings differ (`utf8EncodeChar_append_lt`).
-/

namespace BindingGen.Text

/-- The bytes of a text in UTF-8. -/
def bytes (s : String) : List UInt8 := s.toUTF8.data.toList

theorem bytes_eq_flatMap (s : String) : bytes s = s.toList.flatMap String.utf8EncodeChar := by
  have encoded : s.toByteArray = s.toList.utf8Encode := by
    rw [← String.toByteArray_ofList, String.ofList_toList]
  rw [bytes, String.toUTF8_eq_toByteArray, encoded, List.utf8Encode]
  simp

/-- The smaller character has the smaller encoding, whatever follows: no encoding is the start of
another one. -/
theorem utf8EncodeChar_append_lt {c d : Char} (less : c < d) (x y : List UInt8) :
    String.utf8EncodeChar c ++ x < String.utf8EncodeChar d ++ y := by
  have lessNat : c.val.toNat < d.val.toNat := less
  have bound : d.val.toNat < 0x110000 := by
    rcases d.valid with h | h
    · exact Nat.lt_trans h (by decide)
    · exact h.2
  simp only [String.utf8EncodeChar]
  generalize c.val.toNat = m at lessNat ⊢
  generalize d.val.toNat = n at lessNat bound ⊢
  -- one case for each pair of lengths; a different length shows in the first byte
  repeat' split
  all_goals
    simp only [List.cons_append, List.nil_append, List.cons_lt_cons_iff, UInt8.lt_iff_toNat_lt,
      ← UInt8.toNat_inj, UInt8.toNat_ofNat', Nat.reducePow]
  all_goals try omega
  -- four bytes each: the first two decide, or else the last two
  have high : m / 4096 ≤ n / 4096 := Nat.div_le_div_right (Nat.le_of_lt lessNat)
  rcases Nat.lt_or_eq_of_le high with high | high
  · omega
  · refine .inr ⟨by omega, .inr ⟨by omega, ?_⟩⟩
    omega

theorem flatMap_utf8EncodeChar_lt {a b : List Char} (less : a < b) :
    a.flatMap String.utf8EncodeChar < b.flatMap String.utf8EncodeChar := by
  induction a generalizing b with
  | nil =>
    cases b with
    | nil => exact absurd less (List.not_lt_nil _)
    | cons d b =>
      obtain ⟨byte, rest, equal⟩ :=
        List.exists_cons_of_ne_nil (String.utf8EncodeChar_ne_nil (c := d))
      rw [List.flatMap_nil, List.flatMap_cons, equal]
      exact List.nil_lt_cons _ _
  | cons c a ih =>
    cases b with
    | nil => exact absurd less (List.not_lt_nil _)
    | cons d b =>
      rw [List.flatMap_cons, List.flatMap_cons]
      rcases List.cons_lt_cons_iff.mp less with first | ⟨rfl, later⟩
      · exact utf8EncodeChar_append_lt first _ _
      · exact List.append_left_lt (ih later)

/-- The order of strings is the order of their bytes. -/
theorem bytes_lt_iff {a b : String} : bytes a < bytes b ↔ a < b := by
  have mono : ∀ {a b : String}, a < b → bytes a < bytes b := by
    intro a b less
    rw [bytes_eq_flatMap, bytes_eq_flatMap]
    exact flatMap_utf8EncodeChar_lt less
  refine ⟨fun less => ?_, mono⟩
  by_cases equal : a = b
  · subst equal
    exact absurd less (List.lt_irrefl _)
  · refine Decidable.byContradiction fun notLess => ?_
    have reverse : b < a := by
      refine Decidable.byContradiction fun notReverse => equal ?_
      exact String.le_antisymm notReverse notLess
    exact List.lt_asymm less (mono reverse)

end BindingGen.Text
