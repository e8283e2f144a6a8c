import BindingGen.Proofs.Comment
import BindingGen.Proofs.Text.Cut
import Mathlib.Data.List.Chain

/-!
# The comment at the head of a source

A source starts with a block comment into which the name of the module and its holder are inserted
as the descriptor spells them. A closer in them would end the comment early and leave the rest as
code. Inserted text goes through three passes: two drive a pair of characters apart, and the last
puts blanks for the ends of lines. A pass takes no character out and puts nothing but blanks in, so
it cannot bring two characters together that the passes before it have parted.

Results:
1. `BlockComment.read`: a compiler reads a block comment up to its end and no further.
2. `insertable_blockCommentText`: no opener, no closer and no end of a line stands in inserted text.
3. `header_closed`: the comment at the head is one block comment of five or seven lines, whatever is
   inserted into it.
-/

namespace BindingGen

open Text (feedLines)

/-! ## Block comments -/

/-- What a compiler reads on with behind a block comment at the start of a text: the comment ends at
the first closer behind its opener. -/
def afterComment? : List Char → Option (List Char)
  | '/' :: '*' :: rest => afterMarker? ['*', '/'] rest
  | _ => none

example : afterComment? "/*/ x */ y".toList = some " y".toList := by decide

/-- A text is one closed block comment: it goes from an opener to a closer, and there is no other
opener and no other closer in it. -/
structure BlockComment (text : String) : Prop where
  delimited : ∃ inside, text = "/*" ++ inside ++ "*/"
  openers : ∀ before after, text.toList = before ++ '/' :: '*' :: after → before = []
  closers : ∀ before after, text.toList = before ++ '*' :: '/' :: after → after = []

/-- A compiler reads a block comment up to its end and no further. -/
theorem BlockComment.read {text : String} (comment : BlockComment text) (rest : List Char) :
    afterComment? (text.toList ++ rest) = some rest := by
  obtain ⟨⟨inside, rfl⟩, -, closers⟩ := comment
  have chars : ("/*" ++ inside ++ "*/").toList = '/' :: '*' :: (inside.toList ++ ['*', '/']) := by
    simp
  rw [chars] at closers ⊢
  show afterMarker? ['*', '/'] (inside.toList ++ ['*', '/'] ++ rest) = some rest
  rw [afterMarker?_eq_some_iff (by decide)]
  refine ⟨inside.toList, List.append_assoc .., fun front back parted => ?_⟩
  by_contra shorter
  -- A closer that begins earlier ends before the last character of the comment.
  have closer : front ++ ['*', '/'] <+: inside.toList ++ ['*', '/'] ++ rest :=
    ⟨back, by rw [parted, List.append_assoc]⟩
  have start : inside.toList ++ ['*'] <+: inside.toList ++ ['*', '/'] ++ rest :=
    ⟨'/' :: rest, by simp⟩
  have early : front ++ ['*', '/'] <+: inside.toList ++ ['*'] := by
    refine List.prefix_of_prefix_length_le closer start ?_
    simp only [List.length_append, List.length_cons, List.length_nil]
    omega
  obtain ⟨between, found⟩ := early
  have ended := closers ('/' :: '*' :: front) (between ++ ['/']) (by
    have longer := congrArg (· ++ ['/']) found
    simpa using longer.symm)
  simp at ended

/-! ## Characters that stand apart -/

/-- The second character nowhere follows the first one directly. -/
def Apart (a b : Char) (cs : List Char) : Prop := cs.IsChain fun c d => ¬ (c = a ∧ d = b)

instance (a b : Char) (cs : List Char) : Decidable (Apart a b cs) :=
  inferInstanceAs (Decidable (cs.IsChain _))

namespace Apart

variable {a b : Char} {cs ds : List Char}

theorem ne_append (apart : Apart a b cs) (before after : List Char) :
    cs ≠ before ++ a :: b :: after := by
  intro split
  exact List.isChain_iff_forall_rel_of_append_cons_cons.mp apart split ⟨rfl, rfl⟩

/-- Texts that do not meet in the pair may be put together. -/
theorem append (first : Apart a b cs) (second : Apart a b ds)
    (meet : cs.getLast? ≠ some a ∨ ds.head? ≠ some b) : Apart a b (cs ++ ds) := by
  refine List.isChain_append.mpr ⟨first, second, ?_⟩
  rintro c last d head ⟨rfl, rfl⟩
  exact meet.elim (· last) (· head)

/-- Lines in which the pair does not stand may be put one under the other. -/
theorem join {lines : List String} (each : ∀ line ∈ lines, Apart a b line.toList)
    (first : a ≠ '\n') (second : b ≠ '\n') :
    Apart a b (String.join (lines.map (· ++ "\n"))).toList := by
  induction lines with
  | nil => exact List.isChain_nil
  | cons line lines ih =>
    obtain ⟨inLine, inLines⟩ := List.forall_mem_cons.mp each
    have ended : Apart a b (line.toList ++ ['\n']) :=
      inLine.append (List.isChain_singleton _) (.inr fun same => second (Option.some.inj same).symm)
    rw [List.map_cons, String.join_cons, String.toList_append, String.toList_append]
    refine ended.append (ih inLines) (.inl fun same => first ?_)
    rw [List.getLast?_concat] at same
    exact (Option.some.inj same).symm

end Apart

/-! ## Inserted text -/

section Passes

variable {a b : Char} {cs : List Char}

theorem head?_splitPair (a b : Char) (cs : List Char) : (splitPair a b cs).head? = cs.head? := by
  match cs with
  | [] => rfl
  | [c] => rfl
  | c :: d :: rest =>
    rw [splitPair]
    split
    · next pair => rw [pair.1]; rfl
    · rfl

/-- Characters that meet when a pair has been driven apart have met before, or one is a blank. -/
theorem isChain_splitPair {R : Char → Char → Prop} (blank : ∀ c, R c ' ' ∧ R ' ' c)
    (distinct : a ≠ b) (chain : cs.IsChain fun c d => ¬ (c = a ∧ d = b) → R c d) :
    (splitPair a b cs).IsChain R := by
  induction cs using splitPair.induct a b with
  | case1 => exact List.isChain_nil
  | case2 c => exact List.isChain_singleton c
  | case3 c d rest pair ih =>
    obtain ⟨rfl, rfl⟩ := pair
    obtain ⟨-, behind⟩ := List.isChain_cons_cons.mp chain
    obtain ⟨next, others⟩ := List.isChain_cons.mp behind
    rw [splitPair, if_pos ⟨rfl, rfl⟩, List.isChain_cons_cons, List.isChain_cons_cons,
      List.isChain_cons, head?_splitPair]
    refine ⟨(blank c).1, (blank d).2, fun e head => ?_, ih others⟩
    exact next e head fun same => distinct same.1.symm
  | case4 c d rest apart ih =>
    obtain ⟨meet, others⟩ := List.isChain_cons_cons.mp chain
    rw [splitPair, if_neg apart, List.isChain_cons, head?_splitPair]
    refine ⟨fun e head => ?_, ih others⟩
    cases Option.some.inj head
    exact meet apart

/-- A pair that has been driven apart is apart. -/
theorem apart_splitPair (first : a ≠ ' ') (second : b ≠ ' ') (distinct : a ≠ b) (cs : List Char) :
    Apart a b (splitPair a b cs) := by
  refine isChain_splitPair (fun c => ⟨fun same => second same.2.symm, fun same => ?_⟩) distinct ?_
  · exact first same.1.symm
  · exact List.isChain_iff_forall_rel_of_append_cons_cons.mpr fun _ _ _ _ _ held => held

/-- What is apart stays apart when another pair is driven apart. -/
theorem Apart.splitPair {c d : Char} (apart : Apart c d cs) (first : c ≠ ' ') (second : d ≠ ' ')
    (distinct : a ≠ b) : Apart c d (splitPair a b cs) := by
  refine isChain_splitPair (fun e => ⟨fun same => second same.2.symm, fun same => ?_⟩) distinct ?_
  · exact first same.1.symm
  · exact apart.imp fun _ _ held _ => held

theorem blankBreak_eq {c kept : Char} (noBlank : kept ≠ ' ') (same : blankBreak c = kept) :
    c = kept ∧ c ≠ '\r' ∧ c ≠ '\n' := by
  unfold blankBreak at same
  split at same
  · exact absurd same.symm noBlank
  · next plain => simpa [same] using plain

/-- What is apart stays apart when blanks are put for the ends of lines. -/
theorem Apart.map_blankBreak (apart : Apart a b cs) (first : a ≠ ' ') (second : b ≠ ' ') :
    Apart a b (cs.map blankBreak) := by
  refine (List.isChain_map blankBreak).mpr (apart.imp fun c d held same => held ?_)
  exact ⟨(blankBreak_eq first same.1).1, (blankBreak_eq second same.2).1⟩

end Passes

/-- A text may stand in a line of a block comment: there is no opener, no closer and no end of a
line in it. -/
structure Insertable (text : String) : Prop where
  noOpener : Apart '/' '*' text.toList
  noCloser : Apart '*' '/' text.toList
  noReturn : '\r' ∉ text.toList
  noFeed : '\n' ∉ text.toList

instance (text : String) : Decidable (Insertable text) :=
  decidable_of_iff (Apart '/' '*' text.toList ∧ Apart '*' '/' text.toList ∧ '\r' ∉ text.toList ∧
      '\n' ∉ text.toList)
    ⟨fun ⟨opener, closer, back, feed⟩ => ⟨opener, closer, back, feed⟩,
      fun ⟨opener, closer, back, feed⟩ => ⟨opener, closer, back, feed⟩⟩

theorem insertable_blockCommentText (s : String) : Insertable (blockCommentText s) := by
  have chars : (blockCommentText s).toList =
      (splitPair '/' '*' (splitPair '*' '/' s.toList)).map blankBreak := String.toList_ofList
  have closer : Apart '*' '/' (splitPair '*' '/' s.toList) :=
    apart_splitPair (by decide) (by decide) (by decide) _
  refine ⟨?_, ?_, ?_, ?_⟩
  all_goals rw [chars]
  · refine Apart.map_blankBreak ?_ (by decide) (by decide)
    exact apart_splitPair (by decide) (by decide) (by decide) _
  · refine Apart.map_blankBreak ?_ (by decide) (by decide)
    exact closer.splitPair (by decide) (by decide) (by decide)
  · intro member
    obtain ⟨c, -, same⟩ := List.mem_map.mp member
    obtain ⟨back, noReturn, -⟩ := blankBreak_eq (by decide) same
    exact noReturn back
  · intro member
    obtain ⟨c, -, same⟩ := List.mem_map.mp member
    obtain ⟨feed, -, noFeed⟩ := blankBreak_eq (by decide) same
    exact noFeed feed

example : blockCommentText "*/*/ **//*\n/" = "* / * / ** // * /" := by decide +kernel

/-! ## The lines of the comment -/

/-- A line of a block comment between its first and its last. -/
structure CommentLine (line : String) : Prop extends Insertable line where
  starred : " *".toList <+: line.toList

instance (line : String) : Decidable (CommentLine line) :=
  decidable_of_iff (Insertable line ∧ " *".toList <+: line.toList)
    ⟨fun ⟨insertable, starred⟩ => ⟨insertable, starred⟩, fun ⟨insertable, starred⟩ =>
      ⟨insertable, starred⟩⟩

/-- Text may be inserted into a line where it meets neither a slash nor a star. -/
theorem CommentLine.insert {start text stop : String} (starts : CommentLine start)
    (inner : Insertable text) (stops : Insertable stop)
    (before : start.toList.getLast? ≠ some '/' ∧ start.toList.getLast? ≠ some '*')
    (after : stop.toList.head? ≠ some '*' ∧ stop.toList.head? ≠ some '/') :
    CommentLine (start ++ text ++ stop) := by
  refine ⟨⟨?_, ?_, ?_, ?_⟩, ?_⟩
  all_goals rw [String.toList_append, String.toList_append]
  · exact (starts.noOpener.append inner.noOpener (.inl before.1)).append stops.noOpener
      (.inr after.1)
  · exact (starts.noCloser.append inner.noCloser (.inl before.2)).append stops.noCloser
      (.inr after.2)
  · simp only [List.mem_append, not_or]
    exact ⟨⟨starts.noReturn, inner.noReturn⟩, stops.noReturn⟩
  · simp only [List.mem_append, not_or]
    exact ⟨⟨starts.noFeed, inner.noFeed⟩, stops.noFeed⟩
  · rw [List.append_assoc]
    exact starts.starred.trans (List.prefix_append _ _)

/-- A comment of such lines is closed by its last line and not before. -/
theorem blockComment_of_lines {lines : List String} (inside : ∀ line ∈ lines, CommentLine line) :
    BlockComment ("\n".intercalate ("/*" :: lines ++ [" */"])) := by
  have noOpener := Apart.join (fun line member => (inside line member).noOpener)
    (by decide) (by decide)
  have noCloser := Apart.join (fun line member => (inside line member).noCloser)
    (by decide) (by decide)
  rw [Text.intercalate_concat, List.map_cons, String.join_cons]
  generalize String.join (lines.map (· ++ "\n")) = middle at noOpener noCloser ⊢
  -- Without its first character the comment holds no opener, without its last one no closer.
  have opened : Apart '/' '*' ("*\n".toList ++ middle.toList ++ " */".toList) :=
    (Apart.append (by decide) noOpener (.inl (by decide))).append (by decide) (.inr (by decide))
  have closed : Apart '*' '/' ("/*\n".toList ++ middle.toList ++ " *".toList) :=
    (Apart.append (by decide) noCloser (.inl (by decide))).append (by decide) (.inr (by decide))
  have afterFirst : ("/*" ++ "\n" ++ middle ++ " */").toList =
      '/' :: ("*\n".toList ++ middle.toList ++ " */".toList) := by simp
  have beforeLast : ("/*" ++ "\n" ++ middle ++ " */").toList =
      "/*\n".toList ++ middle.toList ++ " *".toList ++ ['/'] := by simp
  refine ⟨⟨"\n" ++ middle ++ " ", ?_⟩, fun before after split => ?_, fun before after split => ?_⟩
  · refine String.toList_injective ?_
    simp
  · rw [afterFirst] at split
    cases before with
    | nil => rfl
    | cons c before => exact absurd (List.cons.inj split).2 (opened.ne_append before after)
  · rw [beforeLast] at split
    cases after using List.reverseRecOn with
    | nil => rfl
    | append_singleton after c =>
      rw [← List.cons_append, ← List.cons_append, ← List.append_assoc] at split
      exact absurd (List.append_inj_left' split rfl) (closed.ne_append before after)

namespace Fragment

/-- The lines of the comment at the head between the first and the last. -/
def headerInside (module : String) (holder : Option String) : List String :=
  [" * Native bindings for the '" ++ blockCommentText module ++ "' module."] ++
    holder.toList.flatMap (fun holder => [" *", " * Copyright (c) " ++ blockCommentText holder]) ++
    [" *", " * Generated by mpgen. Function bodies are placeholders."]

theorem commentLine_of_mem_headerInside {module : String} {holder : Option String} :
    ∀ line ∈ headerInside module holder, CommentLine line := by
  have title : CommentLine
      (" * Native bindings for the '" ++ blockCommentText module ++ "' module.") :=
    CommentLine.insert (by decide) (insertable_blockCommentText module) (by decide) (by decide)
      (by decide)
  have credit (holder : String) : CommentLine (" * Copyright (c) " ++ blockCommentText holder) := by
    have inserted : CommentLine (" * Copyright (c) " ++ blockCommentText holder ++ "") :=
      CommentLine.insert (by decide) (insertable_blockCommentText holder) (by decide) (by decide)
        (by decide)
    rwa [String.append_empty] at inserted
  have credits : ∀ line ∈ holder.toList.flatMap (fun holder =>
      [" *", " * Copyright (c) " ++ blockCommentText holder]), CommentLine line := by
    refine List.forall_mem_flatMap.mpr fun holder _ => List.forall_mem_cons.mpr ⟨by decide, ?_⟩
    exact List.forall_mem_singleton.mpr (credit holder)
  rw [headerInside, List.forall_mem_append, List.forall_mem_append, List.forall_mem_singleton]
  exact ⟨⟨title, credits⟩, by decide⟩

/-- There is a holder to be named where there is an author or a year. -/
theorem exists_headerLines (module : String) (author : Option String) (year : Option Nat) :
    ∃ holder : Option String, (holder = none ↔ author = none ∧ year = none) ∧
      headerLines module author year =
        ("/*" :: headerInside module holder ++ [" */"]).map (Line.mk 0) := by
  cases author with
  | none =>
    cases year with
    | none => exact ⟨none, by simp, rfl⟩
    | some year => exact ⟨some (toString year), by simp, rfl⟩
  | some author =>
    cases year with
    | none => exact ⟨some author, by simp, rfl⟩
    | some year => exact ⟨some (toString year ++ " " ++ author), by simp, rfl⟩

theorem text_header (module : String) (author : Option String) (year : Option Nat) :
    ∃ lines, (header module author year).text = "\n".intercalate ("/*" :: lines ++ [" */"]) ∧
      (∀ line ∈ lines, CommentLine line) ∧
      lines.length = if author = none ∧ year = none then 3 else 5 := by
  obtain ⟨holder, unheld, lined⟩ := exists_headerLines module author year
  refine ⟨headerInside module holder, ?_, commentLine_of_mem_headerInside, ?_⟩
  · have flush (s : String) : spaces (4 * 0) ++ s = s := String.empty_append
    rw [text, lines, lined, List.map_map]
    simp only [Function.comp_def, flush, List.map_id']
  · simp only [← unheld]
    cases holder with
    | none => rfl
    | some holder => rfl

/-- The comment at the head of a source is one closed block comment, whatever the module is called
and whoever holds it, and a compiler reads on right behind it. No carriage return is in it, it has
two lines more if there is an author or a year, and each of its lines but the first starts with a
star. -/
theorem header_closed (module : String) (author : Option String) (year : Option Nat) :
    BlockComment (header module author year).text ∧
      (∀ rest, afterComment? ((header module author year).text.toList ++ rest) = some rest) ∧
      '\r' ∉ (header module author year).text.toList ∧
      (feedLines (header module author year).text).length =
        (if author = none ∧ year = none then 5 else 7) ∧
      (feedLines (header module author year).text).tail.all (" *".toList.isPrefixOf ·) = true := by
  obtain ⟨lines, text, inside, count⟩ := text_header module author year
  have each : ∀ line ∈ "/*" :: lines ++ [" */"], '\n' ∉ line.toList ∧ '\r' ∉ line.toList := by
    rw [List.forall_mem_append, List.forall_mem_cons, List.forall_mem_singleton]
    exact ⟨⟨by decide, fun line member => ⟨(inside line member).noFeed,
      (inside line member).noReturn⟩⟩, by decide⟩
  have cut : feedLines (header module author year).text =
      ("/*" :: lines ++ [" */"]).map String.toList := by
    rw [text, Text.feedLines_intercalate (by simp), List.map_eq_flatMap]
    exact List.flatMap_congr fun line member => Text.feedLines_of_oneLine (each line member).1
  have closed : BlockComment (header module author year).text := by
    rw [text]
    exact blockComment_of_lines inside
  refine ⟨closed, closed.read, ?_, ?_, ?_⟩
  · rw [text, FunctionDecl.mem_intercalate_iff (by decide)]
    rintro ⟨line, member, found⟩
    exact (each line member).2 found
  · rw [cut, List.length_map, List.length_append, List.length_cons, count]
    split
    · rfl
    · rfl
  · rw [cut]
    show ((lines ++ [" */"]).map String.toList).all _ = true
    rw [List.all_map, List.all_append, Bool.and_eq_true, List.all_eq_true]
    exact ⟨fun line member => List.isPrefixOf_iff_prefix.mpr (inside line member).starred,
      by decide⟩

end Fragment

end BindingGen
