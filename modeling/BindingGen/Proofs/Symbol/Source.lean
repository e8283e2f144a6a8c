import BindingGen.Artifact
import BindingGen.Proofs.Symbol.Table

/-!
# The table and the source

The collector is shown the text of every fragment by itself, the source is laid out with any
indentation, and neither is made from the other. Both come from the lines of the fragments, and a
line feed ends every word, so that both refer to the strings of the single lines:

1. `references_text`: the text of a fragment refers to what its lines refer to.
2. `references_render`: so does a laid out sequence of fragments, at any width.
3. `table_lists_source`: the table of an artifact is what its source refers to.
-/

namespace BindingGen

namespace Symbol

/-! ## References of texts that are put together -/

/-- The search for references takes this name out of a text. -/
def Captured (text name : String) : Prop :=
  ∃ names, Captures text.toList names ∧ name.toList ∈ names

/-- A text has this name with the marker before it as a whole run of word characters. -/
def HasRun (text name : String) : Prop :=
  ∃ before after, text.toList = before ++ (marker ++ name.toList ++ after) ∧
    StartsWord before ∧ EndsWord after ∧ name ≠ "" ∧ ∀ c ∈ name.toList, Text.isWordChar c = true

theorem mem_references {text name : String} :
    name ∈ references text ↔ name.toList ∈ scan text.toList := by
  rw [references, List.mem_map]
  constructor
  · rintro ⟨chars, member, rfl⟩
    rwa [String.toList_ofList]
  · intro member
    exact ⟨name.toList, member, String.ofList_toList⟩

theorem captured_iff {text name : String} : Captured text name ↔ name ∈ references text := by
  rw [mem_references]
  constructor
  · rintro ⟨names, captures, member⟩
    rwa [captures_iff.mp captures] at member
  · intro member
    exact ⟨scan text.toList, captures_scan text.toList, member⟩

theorem captured_of_hasRun {text name : String} (run : HasRun text name) : Captured text name := by
  obtain ⟨before, after, equal, starts, ends, nonempty, words⟩ := run
  rw [captured_iff, mem_references, equal]
  refine mem_scan_of_run starts ?_ words ends
  intro empty
  exact nonempty (String.toList_eq_nil_iff.mp empty)

theorem references_empty : references "" = [] := by
  rw [references, String.toList_empty, scan_nil, List.map_nil]

/-- A character outside words separates what is found on its two sides. -/
theorem references_append_break {c : Char} (outside : Text.isWordChar c = false) (a b : String) :
    references (a ++ (String.singleton c ++ b)) = references a ++ references b := by
  have chars : (a ++ (String.singleton c ++ b)).toList = a.toList ++ c :: b.toList := by simp
  unfold references
  rw [chars, scan_append_break outside, List.map_append]

theorem references_lineFeed (a b : String) :
    references (a ++ ("\n" ++ b)) = references a ++ references b :=
  references_append_break (c := '\n') (by decide) a b

theorem references_spaces (count : Nat) (s : String) :
    references (Fragment.spaces count ++ s) = references s := by
  have skipped : scan (List.replicate count ' ' ++ s.toList) = scan s.toList := by
    induction count with
    | zero => rfl
    | succ count ih =>
      rw [List.replicate_succ, List.cons_append, scan_cons_break (by decide), ih]
  rw [references, String.toList_append, Fragment.spaces, String.toList_ofList, skipped]
  rfl

theorem references_intercalate (lines : List String) :
    references ("\n".intercalate lines) = lines.flatMap references := by
  induction lines with
  | nil => exact references_empty
  | cons line rest ih =>
    cases rest with
    | nil => simp
    | cons next rest =>
      rw [String.intercalate_cons_cons, String.append_assoc, references_lineFeed, ih,
        ← List.flatMap_cons]

end Symbol

open BindingGen.Symbol (references Captured HasRun)

/-! ## Fragments -/

/-- The strings that the lines of a fragment refer to, line by line. -/
def Fragment.references (fragment : Fragment) : List String :=
  fragment.lines.flatMap fun line => Symbol.references line.text

theorem references_text (fragment : Fragment) :
    references fragment.text = fragment.references := by
  rw [Fragment.text, Symbol.references_intercalate, List.flatMap_map]
  simp only [Symbol.references_spaces]
  rfl

namespace Layout

theorem references_indentedLine (width depth : Nat) (line rest : String) :
    references (indentedLine width depth line ++ rest) = references line ++ references rest := by
  unfold indentedLine
  split
  · next empty =>
    rw [String.isEmpty_iff.mp empty, ← String.empty_append (s := "\n" ++ rest)]
    exact Symbol.references_lineFeed "" rest
  · rw [String.append_assoc, String.append_assoc, Symbol.references_spaces,
      Symbol.references_lineFeed]

theorem references_format (width : Nat) (fragment : Fragment) (rest : String) :
    references ((indented width).format fragment ++ rest) =
      fragment.references ++ references rest := by
  simp only [format, Fragment.references]
  induction fragment.lines with
  | nil => simp
  | cons line lines ih =>
    rw [List.map_cons, String.join_cons, String.append_assoc, references_indentedLine, ih,
      List.flatMap_cons, List.append_assoc]

/-- A source refers to what its fragments refer to, whatever the width of a step. -/
theorem references_render (width : Nat) (fragments : List Fragment) :
    references ((indented width).render fragments) = fragments.flatMap Fragment.references := by
  unfold render
  induction fragments with
  | nil => exact Symbol.references_empty
  | cons fragment rest ih =>
    rw [List.map_cons, String.join_cons, references_format, ih, List.flatMap_cons]

end Layout

namespace Listing

/-- The table of a listing holds what its fragments refer to, without the reserved string. -/
theorem mem_table {listing : Listing} {symbol : String} :
    symbol ∈ listing.table.toList ↔
      symbol ≠ reservedSymbol ∧ symbol ∈ listing.fragments.flatMap Fragment.references := by
  rw [table, SymbolTable.mem_ofCollector, Collector.foldl_observe,
    Collector.mem_seen_foldl_observeText, List.flatMap_map]
  simp only [references_text, Collector.empty, List.not_mem_nil, false_or]

theorem table_pairwise (listing : Listing) :
    listing.table.toList.Pairwise fun a b => Text.bytes a < Text.bytes b := by
  rw [table, Collector.foldl_observe]
  exact SymbolTable.ofCollector_pairwise
    (Collector.nodup_seen_foldl_observeText _ List.nodup_nil)

end Listing

namespace Artifact

theorem table_ofPlan (layout : Layout) (plan : ModulePlan) :
    (ofPlan layout plan).table = (plan.listing ⟨plan.decl.name⟩).table := rfl

theorem source_ofPlan (layout : Layout) (plan : ModulePlan) :
    (ofPlan layout plan).source = layout.render (plan.listing ⟨plan.decl.name⟩).fragments := rfl

/-- The artifacts that come out belong to some plan. -/
theorem generateWith_eq_ok {layout : Layout} {m : ModuleDecl} {artifact : Artifact}
    (accepted : generateWith layout m = .ok artifact) :
    ∃ plan, ModulePlan.ofValid m = .ok plan ∧ artifact = ofPlan layout plan := by
  unfold generateWith at accepted
  cases planned : ModulePlan.ofValid m with
  | error fault =>
    rw [planned] at accepted
    cases accepted
  | ok plan =>
    rw [planned] at accepted
    cases accepted
    exact ⟨plan, rfl, rfl⟩

/-- The table of an artifact is in strictly ascending order of bytes and lists exactly the strings
that the search for references takes out of the source, without the reserved one. In particular it
lists every name that stands in the source behind the marker as a whole run of word characters. -/
theorem table_lists_source {width : Nat} {m : ModuleDecl} {artifact : Artifact}
    (accepted : generateWith (.indented width) m = .ok artifact) :
    (artifact.table.toList.Pairwise fun a b => Text.bytes a < Text.bytes b) ∧
    (∀ s, s ∈ artifact.table.toList ↔ s ≠ reservedSymbol ∧ Captured artifact.source s) ∧
    (∀ s, HasRun artifact.source s → s ≠ reservedSymbol → s ∈ artifact.table.toList) := by
  obtain ⟨plan, -, rfl⟩ := generateWith_eq_ok accepted
  have exact : ∀ s, s ∈ (ofPlan (.indented width) plan).table.toList ↔
      s ≠ reservedSymbol ∧ Captured (ofPlan (.indented width) plan).source s := by
    intro s
    rw [Symbol.captured_iff, table_ofPlan, source_ofPlan, Layout.references_render,
      Listing.mem_table]
  refine ⟨?_, exact, ?_⟩
  · rw [table_ofPlan]
    exact Listing.table_pairwise _
  intro s run ordinary
  exact (exact s).mpr ⟨ordinary, Symbol.captured_of_hasRun run⟩

/-- A module whose author and whose only line of C hold the marker, once before itself and once
before the reserved string. -/
def nestedMarks : ModuleDecl where
  name := "m"
  author := some "MP_QSTR_by"
  year := none
  functions := [⟨"f", none, [], false, false,
    some "@c: g(MP_QSTR_MP_QSTR_x, MP_QSTR___name__);", none⟩]
  classes := []

/-- The plan of `nestedMarks`. -/
def nestedMarksPlan : ModulePlan where
  decl := nestedMarks
  functions := nestedMarks.functions.map fun f =>
    ⟨f, .fixed 0, [], ["g(MP_QSTR_MP_QSTR_x, MP_QSTR___name__);"]⟩
  classes := []

theorem nestedMarks_listed :
    ∃ artifact, generateWith (.indented 3) nestedMarks = .ok artifact ∧
      "MP_QSTR_x" ∈ artifact.table.toList ∧ reservedSymbol ∉ artifact.table.toList := by
  have planned : ModulePlan.ofValid nestedMarks = .ok nestedMarksPlan := rfl
  have accepted : generateWith (.indented 3) nestedMarks =
      .ok (ofPlan (.indented 3) nestedMarksPlan) := by
    rw [generateWith, planned]
    rfl
  obtain ⟨-, exact, -⟩ := table_lists_source accepted
  refine ⟨_, accepted, (exact _).mpr ⟨by decide +kernel, ?_⟩, ?_⟩
  · rw [Symbol.captured_iff, source_ofPlan, Layout.references_render, List.mem_flatMap]
    refine ⟨.raw "g(MP_QSTR_MP_QSTR_x, MP_QSTR___name__);", ?_, ?_⟩
    · decide +kernel
    · decide +kernel
  · intro member
    exact ((exact _).mp member).1 rfl

end Artifact

end BindingGen
