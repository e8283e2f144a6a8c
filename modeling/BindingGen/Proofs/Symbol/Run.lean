import BindingGen.Proofs.Symbol.Source
import BindingGen.Proofs.Text.Cut
import BindingGen.Proofs.Text.Identifier

/-!
# References run by run

A scan goes through a text from left to right, but where it has been makes no difference: a
character outside words ends every reference, and inside a run of word characters the first
reference takes the whole rest of the run. So the references of a text are told by its runs alone.

Results:
1. `scan_of_words`: a run refers to what follows the first marker in it, if anything does.
2. `scan_eq_runs`: a text refers to what its runs refer to, one after the other.
3. `references_local`: the first two in terms of places: what stands beyond a character outside
   words does not matter, and a run has one reference at most.
-/

namespace BindingGen.Symbol

open Text (isWordChar WordClass)

/-! ## A single run -/

theorem marker_ne_nil : marker ≠ [] := by decide +kernel

/-- What a run of word characters refers to: the rest behind the first marker, unless it is
empty. -/
def runReference? (run : List Char) : Option (List Char) :=
  (BindingGen.afterMarker? marker run).filter fun after => !after.isEmpty

theorem runReference?_eq_some_iff {run name : List Char} :
    runReference? run = some name ↔ name ≠ [] ∧ ∃ before, FirstAt marker run before name := by
  unfold runReference?
  rw [Option.filter_eq_some_iff, BindingGen.afterMarker?_eq_some_iff marker_ne_nil, and_comm]
  simp

/-- The marker at the end of a text begins no reference. -/
theorem scan_marker : scan marker = [] := by decide +kernel

/-- In a run of word characters the first reference reaches to the end. -/
theorem scan_of_words {run : List Char} (words : ∀ c ∈ run, isWordChar c = true) :
    scan run = (runReference? run).toList := by
  induction run with
  | nil =>
    rw [scan_nil]
    rfl
  | cons c rest ih =>
    unfold runReference?
    rw [BindingGen.afterMarker?]
    split
    · next found =>
      obtain ⟨after, parted⟩ := List.isPrefixOf_iff_prefix.mp found
      rw [← parted, List.drop_left]
      cases after with
      | nil =>
        rw [List.append_nil, scan_marker]
        rfl
      | cons d after =>
        have inside : ∀ e ∈ d :: after, isWordChar e = true := by
          intro e member
          exact words e (parted ▸ List.mem_append_right marker member)
        have taken := scan_reference (List.cons_ne_nil d after) inside endsWord_nil
        rw [List.append_nil, scan_nil] at taken
        rw [taken]
        rfl
    · next missing =>
      have clear : ¬ StartsReference (c :: rest) := by
        rintro ⟨d, tail, equal, -⟩
        exact missing (List.isPrefixOf_iff_prefix.mpr ⟨d :: tail, equal.symm⟩)
      rw [scan_cons_of_not_startsReference clear]
      exact ih fun d member => words d (List.mem_cons_of_mem c member)

/-! ## All runs of a text -/

/-- The runs of word characters of a text, in order. Where two characters outside words meet there
is an empty one. -/
def runs (text : List Char) : List (List Char) := text.splitOnP fun c => !isWordChar c

theorem runs_of_words {run : List Char} (words : ∀ c ∈ run, isWordChar c = true) :
    runs run = [run] := by
  unfold runs
  exact List.splitOnP_eq_singleton fun c member => by simp [words c member]

theorem runs_append_break {c : Char} (outside : isWordChar c = false) (a b : List Char) :
    runs (a ++ c :: b) = runs a ++ runs b := by
  unfold runs
  exact List.splitOnP_append_cons a b (by simp [outside])

/-- A text refers to what its runs refer to, and to nothing else. -/
theorem scan_eq_runs (text : List Char) : scan text = (runs text).filterMap runReference? := by
  -- The text is cut at any character outside words, and both parts are shorter.
  induction length : text.length using Nat.strongRecOn generalizing text with
  | _ n ih =>
    by_cases words : ∀ c ∈ text, isWordChar c = true
    · rw [scan_of_words words, runs_of_words words, List.filterMap_cons]
      cases runReference? text <;> rfl
    · obtain ⟨c, member, outside⟩ : ∃ c ∈ text, isWordChar c = false := by
        simpa using words
      obtain ⟨a, b, rfl⟩ := List.append_of_mem member
      rw [List.length_append, List.length_cons] at length
      rw [scan_append_break outside, runs_append_break outside, List.filterMap_append,
        ih a.length (by omega) a rfl, ih b.length (by omega) b rfl]

/-! ## Texts -/

/-- The search for references is local to runs of word characters. A character of another class
separates what is found on its two sides. In a single run at most one string is found, and it is all
that follows the first marker if that is not empty. -/
theorem references_local :
    (∀ (a b : String) (c : Char), ¬ WordClass c →
      references (a ++ String.singleton c ++ b) = references a ++ references b) ∧
    ∀ run : String, (∀ c ∈ run.toList, WordClass c) →
      (references run).length ≤ 1 ∧
      ∀ name : String, name ∈ references run ↔
        name ≠ "" ∧ ∃ before, FirstAt marker run.toList before name.toList := by
  constructor
  · intro a b c outside
    have apart : isWordChar c = false :=
      Bool.eq_false_iff.mpr fun word => outside (Text.isWordChar_iff.mp word)
    rw [String.append_assoc, references_append_break apart]
  · intro run words
    have found : scan run.toList = (runReference? run.toList).toList :=
      scan_of_words fun c member => Text.isWordChar_iff.mpr (words c member)
    constructor
    · rw [references, List.length_map, found]
      cases runReference? run.toList <;> simp
    · intro name
      rw [mem_references, found, Option.mem_toList, runReference?_eq_some_iff, Ne,
        String.toList_eq_nil_iff]

/-- A letter outside ASCII ends a run, and in a run that holds the marker twice the second one is a
part of the name. -/
theorem nestedRun_references :
    ¬ WordClass 'é' ∧
      references ("MP_QSTR_" ++ String.singleton 'é' ++ "xMP_QSTR_MP_QSTR_y") =
        references "MP_QSTR_" ++ references "xMP_QSTR_MP_QSTR_y" ∧
      (∀ c ∈ "xMP_QSTR_MP_QSTR_y".toList, WordClass c) ∧
      (references "xMP_QSTR_MP_QSTR_y").length ≤ 1 ∧
      "MP_QSTR_y" ∈ references "xMP_QSTR_MP_QSTR_y" := by
  obtain ⟨apart, single⟩ := references_local
  have outside : ¬ WordClass 'é' := fun word => by
    cases Text.isWordChar_iff.mpr word
  have words : ∀ c ∈ "xMP_QSTR_MP_QSTR_y".toList, WordClass c := by
    intro c member
    have all : "xMP_QSTR_MP_QSTR_y".toList.all isWordChar = true := by decide +kernel
    exact Text.isWordChar_iff.mp (List.all_eq_true.mp all c member)
  have first : FirstAt marker "xMP_QSTR_MP_QSTR_y".toList ['x'] "MP_QSTR_y".toList :=
    (firstAt_cons (by decide +kernel)).mpr ⟨[], rfl, firstAt_append.mpr ⟨rfl, rfl⟩⟩
  obtain ⟨most, found⟩ := single _ words
  exact ⟨outside, apart _ _ _ outside, words, most, (found _).mpr ⟨by decide, ['x'], first⟩⟩

end BindingGen.Symbol
