import BindingGen.Proofs.Symbol.Source
import BindingGen.Proofs.Text.Identifier
import Mathlib.Data.List.Infix

/-!
# References of texts with fixed pieces

The lines of a source are put together from fixed pieces and what is inserted between them. A fixed
piece without the marker refers to nothing, and where it begins or ends with a character outside
words nothing is found across that end. So a line refers to what the inserted texts refer to, and
this is read off the fixed pieces alone.

1. `references_of_unmarked`: a text without the marker refers to nothing.
2. `references_interned`: a reference to an identifier refers to this one and to nothing else.
3. `references_head`, `references_tail`, `references_gap`: what fixed pieces leave of a line.
4. `references_lineCommentText`, `references_blockCommentText`: making a text fit for a comment
   changes nothing that it refers to.
-/

namespace BindingGen.Symbol

open Text (isWordChar)

/-! ## Texts without the marker -/

/-- The marker occurs nowhere in a text. -/
abbrev Unmarked (text : String) : Prop := ¬ marker <:+: text.toList

theorem scan_of_unmarked {text : List Char} (clear : ¬ marker <:+: text) : scan text = [] := by
  induction text with
  | nil => exact scan_nil
  | cons c rest ih =>
    rw [scan_cons_of_not_startsReference, ih fun found => clear (List.infix_cons found)]
    rintro ⟨d, tail, equal, -⟩
    exact clear ⟨[], d :: tail, equal.symm⟩

theorem references_of_unmarked {text : String} (clear : Unmarked text) : references text = [] := by
  rw [references, scan_of_unmarked clear, List.map_nil]

/-- One character of the marker that is missing is enough. -/
theorem unmarked_of_notMem {text : String} {c : Char} (inMarker : c ∈ marker)
    (missing : c ∉ text.toList) : Unmarked text :=
  fun found => missing (found.subset inMarker)

/-! ## Texts side by side -/

/-- Nothing is found across the end of a text that no word leads out of. -/
theorem scan_append_of_startsWord {a : List Char} (starts : StartsWord a) (b : List Char) :
    scan (a ++ b) = scan a ++ scan b := by
  rcases List.eq_nil_or_concat a with rfl | ⟨front, c, rfl⟩
  · rw [scan_nil, List.nil_append, List.nil_append]
  · rw [List.concat_eq_append] at starts ⊢
    have outside : isWordChar c = false := starts c front rfl
    rw [List.append_assoc, List.singleton_append, scan_append_break outside,
      scan_append_break outside, scan_nil, List.append_nil]

/-- Nothing is found across the start of a text that no word leads into. -/
theorem scan_append_of_endsWord (a : List Char) {b : List Char} (ends : EndsWord b) :
    scan (a ++ b) = scan a ++ scan b := by
  cases b with
  | nil => rw [scan_nil, List.append_nil, List.append_nil]
  | cons c rest =>
    have outside : isWordChar c = false := ends c rest rfl
    rw [scan_append_break outside, scan_cons_break outside]

/-- A reference to an identifier refers to this one and to nothing else. -/
theorem references_interned {name : String} (identifier : Text.isIdentifier name = true) :
    references (interned name) = [name] := by
  have words := Text.allWord_of_isIdentifier identifier
  have nonempty : name.toList ≠ [] := by
    intro empty
    rw [Text.isIdentifier, empty] at identifier
    cases identifier
  have found : scan (marker ++ name.toList ++ []) = name.toList :: scan [] :=
    scan_reference nonempty (List.all_eq_true.mp words) endsWord_nil
  rw [List.append_nil, scan_nil] at found
  rw [references, interned, String.toList_append]
  show (scan (marker ++ name.toList)).map String.ofList = [name]
  rw [found, List.map_singleton, String.ofList_toList]

/-! ## Fixed pieces -/

section Pieces

variable {s : String} {chars : List Char}

/-- A fixed piece that inserted text may follow: it is unmarked and no word leads out of it. -/
def isHead (chars : List Char) : Bool :=
  chars.getLast?.any (!isWordChar ·) && decide (¬ marker <:+: chars)

/-- A fixed piece that may follow inserted text: it is unmarked and no word leads into it. -/
def isTail (chars : List Char) : Bool :=
  chars.head?.any (!isWordChar ·) && decide (¬ marker <:+: chars)

theorem references_fixed (spelled : s = String.ofList chars) (clear : ¬ marker <:+: chars) :
    references s = [] := by
  rw [spelled, references, String.toList_ofList, scan_of_unmarked clear, List.map_nil]

theorem references_head (spelled : s = String.ofList chars) (head : isHead chars = true)
    (text : String) : references (s ++ text) = references text := by
  obtain ⟨outside, clear⟩ := Bool.and_eq_true_iff.mp head
  have starts : StartsWord chars := by
    rintro c front rfl
    rw [List.getLast?_concat] at outside
    simpa using outside
  rw [spelled, references, String.toList_append, String.toList_ofList,
    scan_append_of_startsWord starts, scan_of_unmarked (of_decide_eq_true clear), List.nil_append]
  rfl

/-- What follows a text is found apart from it if it starts like a tail. -/
theorem references_append_of_isTail (spelled : s = String.ofList chars)
    (tail : isTail chars = true) (before after : String) :
    references (before ++ (s ++ after)) = references before ++ references (s ++ after) := by
  obtain ⟨outside, -⟩ := Bool.and_eq_true_iff.mp tail
  have ends : EndsWord (s ++ after).toList := by
    rw [spelled, String.toList_append, String.toList_ofList]
    cases chars with
    | nil => cases outside
    | cons c rest => exact endsWord_cons (by simpa using outside)
  rw [references, String.toList_append, scan_append_of_endsWord _ ends, List.map_append]
  rfl

theorem references_tail (spelled : s = String.ofList chars) (tail : isTail chars = true)
    (text : String) : references (text ++ s) = references text := by
  have apart := references_append_of_isTail spelled tail text ""
  obtain ⟨-, clear⟩ := Bool.and_eq_true_iff.mp tail
  rwa [String.append_empty, references_fixed spelled (of_decide_eq_true clear),
    List.append_nil] at apart

/-- A fixed piece between two texts parts what is found on its sides. -/
theorem references_gap (spelled : s = String.ofList chars)
    (gap : (isTail chars && isHead chars) = true) (before after : String) :
    references (before ++ s ++ after) = references before ++ references after := by
  obtain ⟨tail, head⟩ := Bool.and_eq_true_iff.mp gap
  rw [String.append_assoc, references_append_of_isTail spelled tail, references_head spelled head]

end Pieces

theorem references_commas (texts : List String) :
    references (", ".intercalate texts) = texts.flatMap references := by
  induction texts with
  | nil => exact references_empty
  | cons text rest ih =>
    cases rest with
    | nil => simp
    | cons next rest =>
      rw [String.intercalate_cons_cons, references_gap rfl (by decide), ih,
        ← List.flatMap_cons]

/-! ## Texts of comments -/

/-- Putting other characters for those outside words changes nothing. The text is taken with what
stands before it, since a word may have begun there. -/
theorem scan_append_map {f : Char → Char} (keeps : ∀ c, isWordChar c = true → f c = c)
    (outside : ∀ c, isWordChar c = false → isWordChar (f c) = false) (before text : List Char) :
    scan (before ++ text.map f) = scan (before ++ text) := by
  induction text generalizing before with
  | nil => rfl
  | cons c rest ih =>
    rw [List.map_cons]
    cases word : isWordChar c with
    | true =>
      rw [keeps c word, List.append_cons, ih, ← List.append_cons]
    | false =>
      rw [scan_append_break (outside c word), scan_append_break word]
      exact congrArg (scan before ++ ·) (ih [])

/-- Driving two characters outside words apart changes nothing. -/
theorem scan_append_splitPair {a b : Char} (first : isWordChar a = false)
    (second : isWordChar b = false) (before text : List Char) :
    scan (before ++ splitPair a b text) = scan (before ++ text) := by
  induction text using splitPair.induct a b generalizing before with
  | case1 => rfl
  | case2 c => rfl
  | case3 c d rest pair ih =>
    obtain ⟨rfl, rfl⟩ := pair
    rw [splitPair, if_pos ⟨rfl, rfl⟩, scan_append_break first, scan_append_break first,
      scan_cons_break (by decide), scan_cons_break second, scan_cons_break second]
    exact congrArg (scan before ++ ·) (ih [])
  | case4 c d rest apart ih =>
    rw [splitPair, if_neg apart, List.append_cons, ih, ← List.append_cons]

theorem references_lineCommentText (s : String) :
    references (lineCommentText s) = references s := by
  have keeps : ∀ c, isWordChar c = true → (if c == '\n' then ' ' else c) = c := by
    intro c word
    refine if_neg fun feed => ?_
    cases word.symm.trans (congrArg isWordChar (beq_iff_eq.mp feed))
  have outside : ∀ c, isWordChar c = false →
      isWordChar (if c == '\n' then ' ' else c) = false := by
    intro c other
    split
    · decide
    · exact other
  rw [references, lineCommentText, String.toList_ofList]
  exact congrArg (List.map String.ofList) (scan_append_map keeps outside [] s.toList)

theorem references_blockCommentText (s : String) :
    references (blockCommentText s) = references s := by
  have keeps : ∀ c, isWordChar c = true → blankBreak c = c := by
    intro c word
    refine if_neg fun ends => ?_
    rcases Bool.or_eq_true_iff.mp ends with back | feed
    · cases word.symm.trans (congrArg isWordChar (beq_iff_eq.mp back))
    · cases word.symm.trans (congrArg isWordChar (beq_iff_eq.mp feed))
  have outside : ∀ c, isWordChar c = false → isWordChar (blankBreak c) = false := by
    intro c other
    unfold blankBreak
    split
    · decide
    · exact other
  have star : isWordChar '*' = false := by decide
  have slash : isWordChar '/' = false := by decide
  rw [references, blockCommentText, String.toList_ofList]
  refine congrArg (List.map String.ofList) ?_
  calc scan ((splitPair '/' '*' (splitPair '*' '/' s.toList)).map blankBreak)
      = scan (splitPair '/' '*' (splitPair '*' '/' s.toList)) :=
        scan_append_map keeps outside [] _
    _ = scan (splitPair '*' '/' s.toList) := scan_append_splitPair slash star [] _
    _ = scan s.toList := scan_append_splitPair star slash [] _

end BindingGen.Symbol
