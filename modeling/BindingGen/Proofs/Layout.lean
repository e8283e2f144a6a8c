import BindingGen.Layout
import BindingGen.Proofs.Text.Cut
import Mathlib.Data.List.Basic
import Mathlib.Data.List.Forall2

/-!
# Layouts differ in indentation only

A layout decides on the blanks in front of a line and on empty lines. A fragment stands on several
lines of its own or carries text from a descriptor that has line feeds in it, and blanks may stand
at the front of that text as well. A text is therefore compared by its lines without their
indentation, whether a layout or a descriptor has put it there.

Results:
1. `bareLines_render_indented`, `bareLines_render_dense`: the lines of a rendering without their
   indentation are those of the fragments, for every width of indentation.
2. `format_standard_of_flush`: a fragment that is not nested is laid out as it stands by itself.
3. `layouts_agree`: any two renderings of the same fragments have the same lines, save for
   indentation and empty lines.
-/

namespace BindingGen

namespace Text

/-! ## Lines without their indentation -/

/-- A line without the blanks in front of it. -/
def unindent (line : List Char) : List Char := line.dropWhile (· == ' ')

/-- The lines of a text without their indentation. -/
def bareLines (text : String) : List (List Char) := (feedLines text).map unindent

theorem bareLines_join (texts : List String) :
    bareLines (String.join (texts.map (· ++ "\n"))) = texts.flatMap bareLines ++ [[]] := by
  have cut := feedLines_join texts ""
  rw [String.append_empty, feedLines_empty] at cut
  rw [bareLines, cut, List.map_append, List.map_flatMap]
  rfl

theorem bareLines_intercalate {texts : List String} (nonempty : texts ≠ []) :
    bareLines ("\n".intercalate texts) = texts.flatMap bareLines := by
  rw [bareLines, feedLines_intercalate nonempty, List.map_flatMap]
  rfl

/-- Blanks in front of a text are indentation of its first line. -/
theorem bareLines_spaces (count : Nat) (text : String) :
    bareLines (Fragment.spaces count ++ text) = bareLines text := by
  rw [bareLines, feedLines, String.toList_append, Fragment.spaces, String.toList_ofList]
  induction count with
  | zero => rfl
  | succ count ih =>
    obtain ⟨line, lines, parted⟩ := List.exists_cons_of_ne_nil
      (List.splitOn_ne_nil '\n' (List.replicate count ' ' ++ text.toList))
    rw [List.replicate_succ, List.cons_append, List.splitOn_cons_eq_if_modifyHead,
      if_neg (by decide), parted]
    rw [parted] at ih
    exact ih

end Text

namespace Fragment

open Text

/-! ## The lines of a fragment -/

/-- The lines of a fragment without their indentation, those in inserted text counted as well. -/
def bareLines (fragment : Fragment) : List (List Char) :=
  fragment.lines.flatMap fun line => Text.bareLines line.text

/-- A line of a list with commas is the last of the list or ends with a comma. -/
theorem mem_withCommas {texts : List String} {text : String} (member : text ∈ withCommas texts) :
    texts.getLast? = some text ∨ ∃ slot, text = slot ++ "," := by
  induction texts using withCommas.induct with
  | case1 => exact absurd member List.not_mem_nil
  | case2 last => exact .inl (congrArg some (List.mem_singleton.mp member).symm)
  | case3 first rest more ih =>
    obtain ⟨next, others, rfl⟩ := List.exists_cons_of_ne_nil (more ·)
    rw [List.getLast?_cons_cons]
    obtain rfl | behind := List.mem_cons.mp member
    · exact .inr ⟨first, rfl⟩
    · exact ih behind

theorem typeLines_flush {name className : String} {makeNew locals : Option String} :
    ∀ line ∈ typeLines name className makeNew locals, line.text = "" → line.depth = 0 := by
  have last : ∀ slot, (name :: interned className :: "MP_TYPE_FLAG_NONE" ::
      ((makeNew.map ("make_new, " ++ ·)).toList ++
        (locals.map ("locals_dict, &" ++ ·)).toList)).getLast? = some slot → slot ≠ "" := by
    cases makeNew <;> cases locals <;> simp
  intro line member empty
  rw [typeLines, List.append_assoc, List.mem_append, List.mem_append, List.mem_map] at member
  obtain opening | ⟨slot, listed, rfl⟩ | closing := member
  · rw [List.mem_singleton.mp opening]
  · obtain final | ⟨slot, rfl⟩ := mem_withCommas listed
    · exact absurd empty (last _ (by simpa using final))
    · simp at empty
  · rw [List.mem_singleton.mp closing]

/-- A nested line of a fragment is not empty. -/
theorem lines_flush {fragment : Fragment} :
    ∀ line ∈ fragment.lines, line.text = "" → line.depth = 0 := by
  cases fragment with
  | typeDefine name className makeNew locals => exact typeLines_flush
  | header module author year => cases author <;> cases year <;> simp [lines, headerLines]
  | _ => simp [lines]

theorem lines_ne_nil (fragment : Fragment) : fragment.lines ≠ [] := by
  cases fragment with
  | header module author year => simp [lines, headerLines]
  | typeDefine name className makeNew locals => simp [lines, typeLines]
  | _ => exact List.cons_ne_nil _ _

theorem bareLines_text (fragment : Fragment) :
    Text.bareLines fragment.text = fragment.bareLines := by
  rw [text, bareLines_intercalate (by simpa using fragment.lines_ne_nil), List.flatMap_map]
  exact List.flatMap_congr fun line _ => bareLines_spaces _ _

end Fragment

namespace Layout

open Text

/-! ## The lines of a rendering -/

/-- A line with its indentation; an empty line has none. -/
def shownLine (width depth : Nat) (line : String) : String :=
  if line = "" then "" else Fragment.spaces (depth * width) ++ line

theorem indentedLine_eq (width depth : Nat) (line : String) :
    indentedLine width depth line = shownLine width depth line ++ "\n" := by
  simp only [indentedLine, shownLine, String.isEmpty_iff]
  split
  · rfl
  · rfl

/-- Without its indentation a line is its text, at any depth. -/
theorem bareLines_shownLine (width depth : Nat) (line : String) :
    bareLines (shownLine width depth line) = bareLines line := by
  unfold shownLine
  split
  · next empty => rw [empty]
  · exact bareLines_spaces _ line

/-- The lines of a fragment with their indentation. -/
def shownLines (width : Nat) (fragment : Fragment) : List String :=
  fragment.lines.map fun line => shownLine width (fragment.depth + line.depth) line.text

theorem bareLines_shownLines (width : Nat) (fragment : Fragment) :
    (shownLines width fragment).flatMap bareLines = fragment.bareLines := by
  rw [shownLines, List.flatMap_map]
  exact List.flatMap_congr fun line _ => bareLines_shownLine _ _ _

theorem format_indented (width : Nat) (fragment : Fragment) :
    (indented width).format fragment =
      String.join ((shownLines width fragment).map (· ++ "\n")) := by
  simp only [format, shownLines, indentedLine_eq, List.map_map]
  rfl

/-- A rendering is made of lines with a line feed behind each. -/
theorem render_indented (width : Nat) (fragments : List Fragment) :
    (indented width).render fragments =
      String.join ((fragments.flatMap (shownLines width)).map (· ++ "\n")) := by
  induction fragments with
  | nil => rfl
  | cons fragment fragments ih =>
    rw [render, List.map_cons, String.join_cons, ← render, ih, format_indented,
      List.flatMap_cons, List.map_append, String.join_append]

theorem render_dense (fragments : List Fragment) :
    dense.render fragments =
      String.join (((fragments.filter (· ≠ .blank)).map Fragment.text).map (· ++ "\n")) := by
  induction fragments with
  | nil => rfl
  | cons fragment fragments ih =>
    rw [render, List.map_cons, String.join_cons, ← render, ih]
    by_cases shown : fragment = .blank
    · rw [shown, List.filter_cons_of_neg (by simp)]
      exact String.empty_append
    · have plain : dense.format fragment = fragment.text ++ "\n" := by
        rw [format]
        exact shown
      rw [plain, List.filter_cons_of_pos (by simpa using shown), List.map_cons, List.map_cons,
        String.join_cons]

/-! ## Renderings without their indentation -/

/-- The width of the indentation does not show in the lines without it. -/
theorem bareLines_render_indented (width : Nat) (fragments : List Fragment) :
    bareLines ((indented width).render fragments) =
      fragments.flatMap Fragment.bareLines ++ [[]] := by
  rw [render_indented, bareLines_join, List.flatMap_assoc]
  simp only [bareLines_shownLines]

theorem bareLines_render_dense (fragments : List Fragment) :
    bareLines (dense.render fragments) =
      (fragments.filter (· ≠ .blank)).flatMap Fragment.bareLines ++ [[]] := by
  rw [render_dense, bareLines_join, List.flatMap_map]
  simp only [Fragment.bareLines_text]

/-- A blank fragment is an empty line. -/
theorem filter_bareLines (fragments : List Fragment) :
    ((fragments.filter (· ≠ .blank)).flatMap Fragment.bareLines).filter (· ≠ []) =
      (fragments.flatMap Fragment.bareLines).filter (· ≠ []) := by
  induction fragments with
  | nil => rfl
  | cons fragment fragments ih =>
    rw [List.flatMap_cons, List.filter_append, ← ih]
    by_cases shown : fragment = .blank
    · rw [shown, List.filter_cons_of_neg (by simp)]
      rfl
    · rw [List.filter_cons_of_pos (by simpa using shown), List.flatMap_cons, List.filter_append]

/-- The usual layout leaves a fragment that is not nested as it stands by itself. -/
theorem format_standard_of_flush {fragment : Fragment} (flush : fragment.depth = 0) :
    standard.format fragment = fragment.text ++ "\n" := by
  have each : ∀ line ∈ fragment.lines, shownLine 4 (fragment.depth + line.depth) line.text =
      Fragment.spaces (4 * line.depth) ++ line.text := by
    intro line member
    rw [shownLine, flush, Nat.zero_add, Nat.mul_comm]
    split
    · next empty => rw [Fragment.lines_flush line member empty, empty]; rfl
    · rfl
  rw [standard, format_indented, shownLines, List.map_congr_left each, join_eq_intercalate]
  · rfl
  · simpa using fragment.lines_ne_nil

/-- Layouts differ in indentation and in empty lines. Any two widths give as many lines, equal but
for the blanks in front of them; leaving out indentation and blank fragments gives the same lines
that are not empty; and with the usual width what is not nested is laid out as it stands by
itself. -/
theorem layouts_agree (fragments : List Fragment) (width other : Nat) :
    List.Forall₂ (fun a b => unindent a = unindent b)
        (feedLines ((indented width).render fragments))
        (feedLines ((indented other).render fragments)) ∧
      (bareLines ((indented width).render fragments)).filter (· ≠ []) =
        (bareLines (dense.render fragments)).filter (· ≠ []) ∧
      ∀ fragment : Fragment, fragment.depth = 0 →
        standard.format fragment = fragment.text ++ "\n" := by
  refine ⟨?_, ?_, fun fragment => format_standard_of_flush⟩
  · have same : bareLines ((indented width).render fragments) =
        bareLines ((indented other).render fragments) := by
      rw [bareLines_render_indented, bareLines_render_indented]
    rw [← List.forall₂_eq_eq_eq, bareLines, bareLines, List.forall₂_map_left_iff,
      List.forall₂_map_right_iff] at same
    exact same
  · rw [bareLines_render_indented, bareLines_render_dense, List.filter_append, List.filter_append,
      filter_bareLines]

/-- Here a line of C has a line feed and blanks in it, another one is empty, and the last fragment
has nested lines. -/
theorem layouts_agree_moduleDefine :
    let fragments : List Fragment := [.raw "a\n  b", .raw "", .blank, .moduleDefine "m" "g"]
    List.Forall₂ (fun a b => unindent a = unindent b) (feedLines ((indented 0).render fragments))
        (feedLines ((indented 3).render fragments)) ∧
      (bareLines ((indented 0).render fragments)).filter (· ≠ []) =
        (bareLines (dense.render fragments)).filter (· ≠ []) ∧
      (Fragment.moduleDefine "m" "g").depth = 0 ∧
      standard.format (.moduleDefine "m" "g") = (Fragment.moduleDefine "m" "g").text ++ "\n" := by
  intro fragments
  obtain ⟨lines, others, flush⟩ := layouts_agree fragments 0 3
  exact ⟨lines, others, rfl, flush (.moduleDefine "m" "g") rfl⟩

end Layout

end BindingGen
