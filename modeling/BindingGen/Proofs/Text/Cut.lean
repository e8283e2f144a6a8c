import BindingGen.Plan
import BindingGen.Layout

/-!
# Where texts are cut

A source is compared line by line. It is cut at its line feeds and nowhere else, and no character is
dropped, so that nothing is hidden from the comparison. A documentation text is cut at the endings
of its lines, which may have a carriage return, and a line of it at the first marker in it.

Results:
1. `feedLines_intercalate`: the lines of texts that stand on lines of their own are theirs in order.
2. `linesOf_iff`: a documentation text has one decomposition into lines, and it is the computed one.
3. `afterMarker?_eq_some_iff`: what follows a marker follows the first one.
-/

namespace BindingGen

namespace Text

/-! ## Lines of a source -/

/-- The lines of a source. What stands behind the last line feed is one of them, even if it is
empty. -/
def feedLines (text : String) : List (List Char) := text.toList.splitOn '\n'

theorem feedLines_empty : feedLines "" = [[]] := rfl

theorem feedLines_append (a b : String) :
    feedLines (a ++ ("\n" ++ b)) = feedLines a ++ feedLines b := by
  have chars : (a ++ ("\n" ++ b)).toList = a.toList ++ '\n' :: b.toList := by simp
  rw [feedLines, chars, List.splitOn_append_cons_self]
  rfl

theorem feedLines_of_oneLine {line : String} (oneLine : '\n' ∉ line.toList) :
    feedLines line = [line.toList] :=
  List.splitOn_eq_singleton oneLine

/-- Texts with a line feed behind each have their lines, one after the other, and what follows has
its own. -/
theorem feedLines_join (texts : List String) (rest : String) :
    feedLines (String.join (texts.map (· ++ "\n")) ++ rest) =
      texts.flatMap feedLines ++ feedLines rest := by
  induction texts with
  | nil => simp
  | cons text texts ih =>
    rw [List.map_cons, String.join_cons, String.append_assoc, String.append_assoc,
      feedLines_append, ih, List.flatMap_cons, List.append_assoc]

theorem intercalate_concat (texts : List String) (last : String) :
    "\n".intercalate (texts ++ [last]) = String.join (texts.map (· ++ "\n")) ++ last := by
  induction texts with
  | nil => simp
  | cons text texts ih =>
    rw [List.cons_append, String.intercalate_cons_of_ne_nil (by simp), ih, List.map_cons,
      String.join_cons, String.append_assoc, String.append_assoc, String.append_assoc]

/-- Texts on lines of their own have their lines, one after the other. -/
theorem feedLines_intercalate {texts : List String} (nonempty : texts ≠ []) :
    feedLines ("\n".intercalate texts) = texts.flatMap feedLines := by
  rw [← List.dropLast_concat_getLast nonempty, intercalate_concat, feedLines_join,
    List.flatMap_append, List.flatMap_singleton]

/-- Texts on lines of their own, with a line feed behind the last as well. -/
theorem join_eq_intercalate {texts : List String} (nonempty : texts ≠ []) :
    String.join (texts.map (· ++ "\n")) = "\n".intercalate texts ++ "\n" := by
  rw [← List.dropLast_concat_getLast nonempty, intercalate_concat, List.map_append,
    String.join_append, String.append_assoc]
  simp

/-! ## Lines of a documentation text -/

/-- `LinesOf cs lines`: the text is made of these lines with an ending behind each, a line feed or a
carriage return and a line feed; the last line may lack its ending unless it is empty. A carriage
return that no line feed follows is a character like others. -/
inductive LinesOf : List Char → List (List Char) → Prop
  | none : LinesOf [] []
  | unended {line : List Char} : line ≠ [] → '\n' ∉ line → LinesOf line [line]
  | feed {line rest : List Char} {lines : List (List Char)} :
      '\n' ∉ line → line.getLast? ≠ some '\r' → LinesOf rest lines →
      LinesOf (line ++ '\n' :: rest) (line :: lines)
  | returnFeed {line rest : List Char} {lines : List (List Char)} :
      '\n' ∉ line → LinesOf rest lines → LinesOf (line ++ '\r' :: '\n' :: rest) (line :: lines)

/-- No line holds a line feed. -/
theorem LinesOf.lineFeed_notMem {cs : List Char} {lines : List (List Char)}
    (parted : LinesOf cs lines) : ∀ line ∈ lines, '\n' ∉ line := by
  induction parted with
  | none => exact nofun
  | unended _ oneLine => exact List.forall_mem_singleton.mpr oneLine
  | feed oneLine _ _ ih => exact List.forall_mem_cons.mpr ⟨oneLine, ih⟩
  | returnFeed oneLine _ ih => exact List.forall_mem_cons.mpr ⟨oneLine, ih⟩

/-- The lines with a character put before the first of them. -/
def extendFirst (c : Char) : List (List Char) → List (List Char)
  | [] => [[c]]
  | line :: lines => (c :: line) :: lines

/-- A character belongs to the first line if no ending begins with it. -/
theorem splitLines_cons {c : Char} {cs : List Char} (noFeed : c ≠ '\n')
    (noEnding : c = '\r' → cs.head? ≠ some '\n') :
    splitLines (c :: cs) = extendFirst c (splitLines cs) := by
  rw [splitLines]
  · cases splitLines cs with
    | nil => rfl
    | cons line lines => rfl
  · exact noFeed
  · rintro rest back rfl
    exact noEnding back rfl

theorem LinesOf.extendFirst {c : Char} {cs : List Char} {lines : List (List Char)}
    (noFeed : c ≠ '\n') (noEnding : c = '\r' → cs.head? ≠ some '\n') (parted : LinesOf cs lines) :
    LinesOf (c :: cs) (extendFirst c lines) := by
  have longer {line : List Char} (oneLine : '\n' ∉ line) : '\n' ∉ c :: line :=
    List.not_mem_cons_of_ne_of_not_mem noFeed.symm oneLine
  cases parted with
  | none => exact .unended (List.cons_ne_nil c []) (longer List.not_mem_nil)
  | unended _ oneLine => exact .unended (List.cons_ne_nil c _) (longer oneLine)
  | returnFeed oneLine parted => exact .returnFeed (longer oneLine) parted
  | @feed line rest lines oneLine plain parted =>
    refine .feed (longer oneLine) ?_ parted
    cases line with
    | nil => exact fun same => noEnding (Option.some.inj same) rfl
    | cons d line => rwa [List.getLast?_cons_cons]

theorem LinesOf.splitLines_cons {c : Char} {cs : List Char} (noFeed : c ≠ '\n')
    (noEnding : ∀ rest, c = '\r' → cs = '\n' :: rest → False)
    (parted : LinesOf cs (splitLines cs)) : LinesOf (c :: cs) (splitLines (c :: cs)) := by
  have apart : c = '\r' → cs.head? ≠ some '\n' := by
    intro back feed
    obtain ⟨rest, rfl⟩ := List.head?_eq_some_iff.mp feed
    exact noEnding rest back rfl
  rw [Text.splitLines_cons noFeed apart]
  exact parted.extendFirst noFeed apart

theorem linesOf_splitLines (cs : List Char) : LinesOf cs (splitLines cs) := by
  induction cs using splitLines.induct with
  | case1 => exact .none
  | case2 rest ih => exact .feed List.not_mem_nil nofun ih
  | case3 rest ih => exact .returnFeed List.not_mem_nil ih
  | case4 c rest noFeed noEnding _ ih => exact ih.splitLines_cons noFeed noEnding
  | case5 c rest noFeed noEnding _ _ _ ih => exact ih.splitLines_cons noFeed noEnding

/-- A line without an ending in it goes on into what follows. -/
theorem splitLines_append {line tail last : List Char} {lines : List (List Char)}
    (oneLine : '\n' ∉ line) (noEnding : line.getLast? = some '\r' → tail.head? ≠ some '\n')
    (parted : splitLines tail = last :: lines) :
    splitLines (line ++ tail) = (line ++ last) :: lines := by
  induction line with
  | nil => exact parted
  | cons c line ih =>
    obtain ⟨noFeed, oneLine⟩ := List.ne_and_not_mem_of_not_mem_cons oneLine
    have first : c = '\r' → (line ++ tail).head? ≠ some '\n' := by
      intro back
      cases line with
      | nil => exact noEnding (congrArg some back)
      | cons d line =>
        exact fun feed => oneLine (Option.some.inj feed ▸ List.mem_cons_self)
    have others : line.getLast? = some '\r' → tail.head? ≠ some '\n' := by
      intro back
      refine noEnding ?_
      rw [List.getLast?_cons, back]
      rfl
    rw [List.cons_append, splitLines_cons noFeed.symm first, ih oneLine others]
    rfl

/-- A documentation text has one decomposition into lines. -/
theorem linesOf_iff {cs : List Char} {lines : List (List Char)} :
    LinesOf cs lines ↔ splitLines cs = lines := by
  constructor
  · intro parted
    induction parted with
    | none => rfl
    | @unended line nonempty oneLine =>
      -- The last character is a line by itself, which the others are put before.
      have whole := List.dropLast_concat_getLast nonempty
      rw [← whole, List.mem_append, List.mem_singleton, not_or] at oneLine
      have last : splitLines [line.getLast nonempty] = [[line.getLast nonempty]] :=
        Text.splitLines_cons (Ne.symm oneLine.2) fun _ => nofun
      have noEnding : line.dropLast.getLast? = some '\r' →
          [line.getLast nonempty].head? ≠ some '\n' :=
        fun _ feed => oneLine.2 (Option.some.inj feed).symm
      have joined := splitLines_append oneLine.1 noEnding last
      rwa [whole] at joined
    | @feed line rest lines oneLine plain _ ih =>
      have ended : splitLines ('\n' :: rest) = [] :: lines := by rw [splitLines, ih]
      rw [splitLines_append oneLine (fun back => absurd back plain) ended, List.append_nil]
    | @returnFeed line rest lines oneLine _ ih =>
      have ended : splitLines ('\r' :: '\n' :: rest) = [] :: lines := by rw [splitLines, ih]
      have noFeed : ('\r' :: '\n' :: rest).head? ≠ some '\n' := by simp
      rw [splitLines_append oneLine (fun _ => noFeed) ended, List.append_nil]
  · rintro rfl
    exact linesOf_splitLines cs

end Text

/-! ## The first marker -/

section Marker

variable {marker cs : List Char}

/-- `FirstAt marker cs before after`: the marker stands between these two parts of the text, and
nowhere earlier. -/
structure FirstAt (marker cs before after : List Char) : Prop where
  split : cs = before ++ (marker ++ after)
  first : ∀ front back, cs = front ++ (marker ++ back) → before.length ≤ front.length

/-- A text that starts with the marker is parted there. -/
theorem firstAt_append {before after rest : List Char} :
    FirstAt marker (marker ++ rest) before after ↔ before = [] ∧ after = rest := by
  constructor
  · rintro ⟨split, first⟩
    obtain rfl := List.eq_nil_of_length_eq_zero (Nat.le_zero.mp (first [] rest rfl))
    exact ⟨rfl, (List.append_cancel_left split).symm⟩
  · rintro ⟨rfl, rfl⟩
    exact ⟨rfl, fun _ _ _ => Nat.zero_le _⟩

theorem firstAt_cons {c : Char} {before after : List Char} (clear : ¬ marker <+: c :: cs) :
    FirstAt marker (c :: cs) before after ↔
      ∃ front, before = c :: front ∧ FirstAt marker cs front after := by
  constructor
  · rintro ⟨split, first⟩
    cases before with
    | nil => exact absurd ⟨after, split.symm⟩ clear
    | cons d front =>
      obtain ⟨rfl, rest⟩ := List.cons.inj split
      refine ⟨front, rfl, rest, fun other back parted => ?_⟩
      exact Nat.le_of_succ_le_succ (first (c :: other) back (congrArg (c :: ·) parted))
  · rintro ⟨front, rfl, split, first⟩
    refine ⟨congrArg (c :: ·) split, fun other back parted => ?_⟩
    cases other with
    | nil => exact absurd ⟨back, parted.symm⟩ clear
    | cons d other => exact Nat.succ_le_succ (first other back (List.cons.inj parted).2)

/-- What follows a marker in a text follows the first one. -/
theorem afterMarker?_eq_some_iff {after : List Char} (nonempty : marker ≠ []) :
    afterMarker? marker cs = some after ↔ ∃ before, FirstAt marker cs before after := by
  induction cs with
  | nil =>
    rw [afterMarker?, if_neg (by simpa using nonempty)]
    refine iff_of_false nofun ?_
    rintro ⟨before, split, -⟩
    simp [nonempty] at split
  | cons c cs ih =>
    rw [afterMarker?]
    split
    · next found =>
      obtain ⟨rest, parted⟩ := List.isPrefixOf_iff_prefix.mp found
      rw [← parted, List.drop_left]
      simp [firstAt_append, eq_comm]
    · next missing =>
      rw [List.isPrefixOf_iff_prefix] at missing
      simp only [ih, firstAt_cons missing]
      constructor
      · rintro ⟨front, parted⟩
        exact ⟨_, front, rfl, parted⟩
      · rintro ⟨_, front, -, parted⟩
        exact ⟨front, parted⟩

/-- Nothing follows a marker that the text does not hold. -/
theorem afterMarker?_eq_none_iff (nonempty : marker ≠ []) :
    afterMarker? marker cs = none ↔ ¬ marker <:+: cs := by
  induction cs with
  | nil =>
    rw [afterMarker?, if_neg (by simpa using nonempty)]
    simpa using nonempty
  | cons c cs ih =>
    rw [afterMarker?, List.infix_cons_iff]
    split
    · next found =>
      refine iff_of_false nofun (not_not_intro (.inl ?_))
      exact List.isPrefixOf_iff_prefix.mp found
    · next missing =>
      rw [List.isPrefixOf_iff_prefix] at missing
      rw [ih, not_or, and_iff_right missing]

end Marker

end BindingGen
