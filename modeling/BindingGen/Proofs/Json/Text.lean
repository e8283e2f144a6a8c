import BindingGen.Json.Text
import BindingGen.Json.Written

/-!
# Strings read back

A written string escapes the quote, the backslash and the control characters, and every other
character stands for itself; so one step of reading takes off exactly what was written of one
character.

Main result: `string_written`, a string reads back from its text, whatever follows.
-/

namespace BindingGen.Json

/-- Control characters are escaped with two digits that give them back. -/
theorem codeUnit_control {n : Nat} (control : n < 0x20) (rest : List Char) :
    codeUnit ('0' :: '0' :: hexDigit (n / 16) :: hexDigit (n % 16) :: rest) = .ok (n, rest) := by
  have value : ∀ k < 0x20, hexValue4? '0' '0' (hexDigit (k / 16)) (hexDigit (k % 16)) = some k := by
    decide
  have size : ∀ k < 0x20, ¬ (['0', '0', hexDigit (k / 16), hexDigit (k % 16)].foldl
      (fun size c => size + c.utf8Size) 0 < 4) := by
    decide
  have four : ('0' :: '0' :: hexDigit (n / 16) :: hexDigit (n % 16) :: rest).take 4 =
      ['0', '0', hexDigit (n / 16), hexDigit (n % 16)] := rfl
  rw [codeUnit, four, if_neg (size n control), value n control]

theorem escapedUnits_control {c : Char} (control : c.toNat < 0x20) (rest : List Char) :
    escapedUnits ('0' :: '0' :: hexDigit (c.toNat / 16) :: hexDigit (c.toNat % 16) :: rest) =
      .ok (c, rest) := by
  have surrogate : ∀ k < 0x20, isLowSurrogate k = false ∧ isHighSurrogate k = false := by
    decide
  obtain ⟨notLow, notHigh⟩ := surrogate c.toNat control
  rw [escapedUnits, codeUnit_control control]
  dsimp only
  rw [notLow, notHigh, if_neg Bool.false_ne_true, Bool.not_false, if_pos rfl, Char.ofNat_toNat]

/-- A step of reading takes off one written character. -/
theorem piece_writtenChar (c : Char) (rest : List Char) :
    piece escaped (writtenChar c ++ rest) = .ok (.char c, rest) := by
  unfold writtenChar
  split
  iterate 7 rfl
  next notQuote notBackslash _ _ _ _ _ =>
    split
    · next control =>
      show (escapedUnits.map Piece.char) ('0' :: '0' :: hexDigit (c.toNat / 16) ::
        hexDigit (c.toNat % 16) :: rest) = _
      rw [Reader.map, escapedUnits_control control]
    · next plain =>
      show piece escaped (c :: rest) = _
      unfold piece
      split
      · next equal => cases equal
      · next equal => exact absurd (List.cons.inj equal).1 notQuote
      · next equal => exact absurd (List.cons.inj equal).1 notBackslash
      · next equal =>
        cases equal
        rw [if_neg plain]

/-- A string is read up to its closing quote. -/
theorem pieces_written {content : List Char} {limit : Nat} (enough : content.length < limit)
    (before rest : List Char) :
    pieces escaped limit before (content.flatMap writtenChar ++ '"' :: rest) =
      .ok (before.reverse ++ content, rest) := by
  induction content generalizing limit before with
  | nil =>
    obtain ⟨limit, rfl⟩ := Nat.exists_eq_add_one.mpr enough
    show Except.ok (before.reverse, rest) = _
    rw [List.append_nil]
  | cons c content ih =>
    obtain ⟨limit, rfl⟩ := Nat.exists_eq_add_one.mpr (Nat.zero_lt_of_lt enough)
    rw [List.flatMap_cons, List.append_assoc, pieces, piece_writtenChar]
    dsimp only
    rw [ih (Nat.lt_of_succ_lt_succ enough), List.reverse_cons, List.append_assoc]
    rfl

theorem string_written {s : String} {limit : Nat} (enough : s.toList.length < limit)
    (rest : List Char) :
    string limit (s.toList.flatMap writtenChar ++ '"' :: rest) = .ok (s, rest) := by
  rw [string, Reader.map, pieces_written enough]
  dsimp only
  rw [List.reverse_nil, List.nil_append, String.ofList_toList]

/-- No character is written as nothing. -/
theorem length_le_length_written (content : List Char) :
    content.length ≤ (content.flatMap writtenChar).length := by
  induction content with
  | nil => exact Nat.le_refl 0
  | cons c content ih =>
    have some : 1 ≤ (writtenChar c).length := by
      unfold writtenChar
      split <;> first | decide | split <;> simp
    rw [List.flatMap_cons, List.length_append, List.length_cons]
    omega

end BindingGen.Json
