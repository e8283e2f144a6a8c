import BindingGen.Proofs.Symbol.Source
import Mathlib.Data.Set.Card

/-!
# From observations to the written table

A collector is shown texts and fragments in some order, some of them more than once. What it keeps
is a set, and everything that is made from it later depends on that set alone: the table, the
answers of the table and the lines it is written in. The reserved string is counted by the collector
and never listed by the table.

Results:
1. `Collector.mem_seen_ofObservations`: a collector has seen what is captured in some observation.
2. `SymbolLine.readText_render`: the lines of a written table, read one by one, are the condition,
   the symbols in order and the condition again.
3. `SymbolTable.ofObservations_tabulates`: what a table lists, how it answers and how it is written,
   for any observations and in any order of them.
-/

namespace BindingGen

open BindingGen.Symbol (Captured)

/-! ## Observations -/

/-- What a collector is shown. -/
inductive Observation where
  | text (text : String)
  | fragment (fragment : Fragment)
  deriving DecidableEq

namespace Observation

/-- The text that is searched. -/
def content : Observation → String
  | text t => t
  | fragment f => f.text

/-- The strings that are captured in at least one observation. -/
def captured (observations : List Observation) : Set String :=
  {s | ∃ o ∈ observations, Captured o.content s}

theorem captured_eq_of_same {observations others : List Observation}
    (same : ∀ o, o ∈ others ↔ o ∈ observations) : captured others = captured observations := by
  simp only [captured, same]

end Observation

namespace Collector

/-- Shows an observation to a collector. -/
def see (c : Collector) : Observation → Collector
  | .text t => c.observeText t
  | .fragment f => c.observe f

/-- A collector that has been shown these observations and no other. -/
def ofObservations (observations : List Observation) : Collector := observations.foldl see empty

/-- Observations are shown by their texts. -/
theorem foldl_see (observations : List Observation) (c : Collector) :
    observations.foldl see c = (observations.map Observation.content).foldl observeText c := by
  have same : see = fun c o => c.observeText o.content := by
    funext c o
    cases o <;> rfl
  rw [same, List.foldl_map]

/-- A collector has seen exactly what is captured in some observation. -/
theorem mem_seen_ofObservations {observations : List Observation} {s : String} :
    s ∈ (ofObservations observations).seen ↔ s ∈ Observation.captured observations := by
  rw [ofObservations, foldl_see, mem_seen_foldl_observeText, List.flatMap_map, List.mem_flatMap]
  simp only [Observation.captured, Set.mem_ofPred_eq, Symbol.captured_iff, empty,
    List.not_mem_nil, false_or]

theorem nodup_seen_ofObservations (observations : List Observation) :
    (ofObservations observations).seen.Nodup := by
  rw [ofObservations, foldl_see]
  exact nodup_seen_foldl_observeText _ List.nodup_nil

/-- The size of a collector is the number of captured strings, the reserved one among them. -/
theorem size_ofObservations (observations : List Observation) :
    ((ofObservations observations).size : ℕ∞) = (Observation.captured observations).encard := by
  have members : Observation.captured observations =
      ((ofObservations observations).seen.toFinset : Set String) := by
    ext s
    rw [List.coe_toFinset, Set.mem_ofPred_eq, mem_seen_ofObservations]
  rw [members, Set.encard_coe_eq_coe_finsetCard,
    List.toFinset_card_of_nodup (nodup_seen_ofObservations observations), size]

end Collector

/-! ## The lines of a written table -/

/-- What a line of a written table says. -/
inductive SymbolLine where
  /-- The table begins, under a condition. -/
  | opening (guard : String)
  | entry (symbol : String)
  /-- The table ends, and the condition is repeated. -/
  | closing (guard : String)
  | other (text : String)
  deriving DecidableEq

namespace SymbolLine

/-- What stands between a given start and a given end of a line. -/
def between? (start stop : String) (line : List Char) : Option String :=
  (start.toList.isPrefixOf? line).bind fun rest =>
    (stop.toList.isSuffixOf? rest).map String.ofList

/-- Reads a line by what it starts and ends with. -/
def read (line : List Char) : SymbolLine :=
  match between? "#if " "" line, between? "Q(" ")" line, between? "#endif // " "" line with
  | some guard, _, _ => opening guard
  | none, some symbol, _ => entry symbol
  | none, none, some guard => closing guard
  | none, none, none => other (String.ofList line)

/-- Reads a text line by line; what stands behind the last line feed is read as well. -/
def readText (text : String) : List SymbolLine := (text.toList.splitOn '\n').map read

theorem between?_eq_some_iff {start stop s : String} {line : List Char} :
    between? start stop line = some s ↔
      line = start.toList ++ (s.toList ++ stop.toList) := by
  simp only [between?, Option.bind_eq_some_iff, Option.map_eq_some_iff,
    List.isPrefixOf?_eq_some_iff_append_eq, List.isSuffixOf?_eq_some_iff_append_eq]
  constructor
  · rintro ⟨rest, rfl, chars, rfl, rfl⟩
    rw [String.toList_ofList]
  · rintro rfl
    exact ⟨_, rfl, s.toList, rfl, String.ofList_toList⟩

theorem read_opening (guard : String) : read ("#if " ++ guard).toList = opening guard := by
  have found : between? "#if " "" ("#if " ++ guard).toList = some guard :=
    between?_eq_some_iff.mpr (by simp)
  rw [read, found]

theorem read_entry (symbol : String) : read ("Q(" ++ symbol ++ ")").toList = entry symbol := by
  have found : between? "Q(" ")" ("Q(" ++ symbol ++ ")").toList = some symbol :=
    between?_eq_some_iff.mpr (by simp)
  have noOpening : between? "#if " "" ("Q(" ++ symbol ++ ")").toList = none := by
    rw [String.append_assoc, String.toList_append]
    rfl
  rw [read, found, noOpening]

theorem read_closing (guard : String) :
    read ("#endif // " ++ guard).toList = closing guard := by
  have found : between? "#endif // " "" ("#endif // " ++ guard).toList = some guard :=
    between?_eq_some_iff.mpr (by simp)
  have noOpening : between? "#if " "" ("#endif // " ++ guard).toList = none := by
    rw [String.toList_append]
    rfl
  have noEntry : between? "Q(" ")" ("#endif // " ++ guard).toList = none := by
    rw [String.toList_append]
    rfl
  rw [read, found, noOpening, noEntry]

/-- A text is read by its first line and its other lines. -/
theorem readText_line {line : String} (oneLine : '\n' ∉ line.toList) (rest : String) :
    readText (line ++ ("\n" ++ rest)) = read line.toList :: readText rest := by
  have chars : (line ++ ("\n" ++ rest)).toList = line.toList ++ '\n' :: rest.toList := by simp
  rw [readText, chars, List.splitOn_append_cons_self_of_not_mem oneLine, List.map_cons]
  rfl

theorem readText_entries {symbols : List String} (oneLine : ∀ s ∈ symbols, '\n' ∉ s.toList)
    (rest : String) :
    readText (String.join (symbols.map SymbolTable.entryText) ++ rest) =
      symbols.map entry ++ readText rest := by
  induction symbols with
  | nil => simp
  | cons symbol symbols ih =>
    rw [List.forall_mem_cons] at oneLine
    have noLineFeed : '\n' ∉ ("Q(" ++ symbol ++ ")").toList := by
      simpa using oneLine.1
    have first : String.join ((symbol :: symbols).map SymbolTable.entryText) ++ rest =
        ("Q(" ++ symbol ++ ")") ++
          ("\n" ++ (String.join (symbols.map SymbolTable.entryText) ++ rest)) := by
      rw [List.map_cons, String.join_cons, SymbolTable.entryText]
      simp only [String.append_assoc]
      rfl
    rw [first, readText_line noLineFeed, read_entry, ih oneLine.2, List.map_cons, List.cons_append]

/-- The lines of a written table are its condition, its symbols in order and its condition again,
and nothing stands behind them. -/
theorem readText_render {table : SymbolTable} {guard : String}
    (oneLine : ∀ s ∈ table.toList, '\n' ∉ s.toList) (guardOneLine : '\n' ∉ guard.toList) :
    readText (table.render guard) =
      opening guard :: (table.toList.map entry ++ [closing guard, other ""]) := by
  have noOpeningFeed : '\n' ∉ ("#if " ++ guard).toList := by simpa using guardOneLine
  have noClosingFeed : '\n' ∉ ("#endif // " ++ guard).toList := by simpa using guardOneLine
  have lines : table.render guard =
      ("#if " ++ guard) ++ ("\n" ++ (String.join (table.toList.map SymbolTable.entryText) ++
        (("#endif // " ++ guard) ++ ("\n" ++ "")))) := by
    rw [SymbolTable.render]
    simp only [String.append_assoc, String.append_empty]
  have behind : readText "" = [other ""] := by decide +kernel
  rw [lines, readText_line noOpeningFeed, read_opening, readText_entries oneLine,
    readText_line noClosingFeed, read_closing, behind]

end SymbolLine

/-! ## The table of any observations -/

theorem Symbol.lineFeed_notMem_of_captured {text s : String} (captured : Captured text s) :
    '\n' ∉ s.toList := by
  intro member
  have words := (isWordChar_of_mem_scan (mem_references.mp (captured_iff.mp captured))).2
  exact absurd (words '\n' member) (by decide)

namespace SymbolTable

/-- `table.Tabulates strings`: the table lists these strings and no others, each once, in strictly
ascending order of bytes, and its answers are what it lists. -/
structure Tabulates (table : SymbolTable) (strings : Set String) : Prop where
  ascending : table.toList.Pairwise fun a b => Text.bytes a < Text.bytes b
  distinct : table.toList.Nodup
  mem_iff : ∀ s, s ∈ table.toList ↔ s ∈ strings
  contains_iff : ∀ s, table.contains s = true ↔ s ∈ table.toList

/-- The table of a collector that has been shown these observations. -/
def ofObservations (observations : List Observation) : SymbolTable :=
  ofCollector (Collector.ofObservations observations)

theorem ascending_ofObservations (observations : List Observation) :
    Ascending (ofObservations observations).toList :=
  ofCollector_pairwise (Collector.nodup_seen_ofObservations observations)

theorem mem_ofObservations {observations : List Observation} {s : String} :
    s ∈ (ofObservations observations).toList ↔
      s ∈ Observation.captured observations \ {reservedSymbol} := by
  rw [ofObservations, mem_ofCollector, Collector.mem_seen_ofObservations, Set.mem_sdiff,
    Set.mem_singleton_iff, and_comm]

theorem lineFeed_notMem_ofObservations {observations : List Observation} {s : String}
    (member : s ∈ (ofObservations observations).toList) : '\n' ∉ s.toList := by
  obtain ⟨⟨_, -, captured⟩, -⟩ := mem_ofObservations.mp member
  exact Symbol.lineFeed_notMem_of_captured captured

/-- Whatever a collector is shown, its table lists what is captured in the observations, without the
reserved string. Observations in another order, or some of them more than once, give the same table.
Written under a condition of one line and read again line by line, the table is what it was. The
size of the collector counts the reserved string too. -/
theorem ofObservations_tabulates {observations others : List Observation} {guard : String}
    (same : ∀ o, o ∈ others ↔ o ∈ observations) (oneLine : '\n' ∉ guard.toList) :
    (ofObservations observations).Tabulates
        (Observation.captured observations \ {reservedSymbol}) ∧
      ofObservations others = ofObservations observations ∧
      SymbolLine.readText ((ofObservations observations).render guard) =
        .opening guard ::
          ((ofObservations observations).toList.map .entry ++ [.closing guard, .other ""]) ∧
      ((Collector.ofObservations observations).size : ℕ∞) =
        (Observation.captured observations).encard := by
  have ascending := ascending_ofObservations observations
  refine ⟨⟨ascending, ascending.nodup, fun _ => mem_ofObservations, fun _ =>
    contains_iff ascending⟩, ?_, ?_, Collector.size_ofObservations observations⟩
  · refine eq_of_mem_iff (ascending_ofObservations others) ascending fun s => ?_
    rw [mem_ofObservations, mem_ofObservations, Observation.captured_eq_of_same same]
  · exact SymbolLine.readText_render (fun _ => lineFeed_notMem_ofObservations) oneLine

/-- A text and an entry of a map. They refer to three strings, one of them the reserved one. -/
def fewObservations : List Observation :=
  [.text "MP_QSTR_b(MP_QSTR___name__, MP_QSTR_b)", .fragment (.mapEntry "a" (.pointer "a_obj"))]

theorem ofObservations_fewObservations : ofObservations fewObservations = ⟨#["a", "b"]⟩ := by
  have seen : (Collector.ofObservations fewObservations).seen = ["a", reservedSymbol, "b"] := by
    decide +kernel
  have ascending : Ascending ["a", "b"] := List.pairwise_pair.mpr (by decide +kernel)
  refine eq_of_mem_iff (ascending_ofObservations _) ascending fun s => ?_
  rw [ofObservations, mem_ofCollector, seen, toList]
  constructor
  · rintro ⟨ordinary, member⟩
    simpa [ordinary] using member
  · intro member
    rcases List.mem_pair.mp member with rfl | rfl
    · decide +kernel
    · decide +kernel

theorem fewObservations_tabulated :
    ofObservations (fewObservations.reverse ++ fewObservations) = ofObservations fewObservations ∧
      SymbolLine.readText ((ofObservations fewObservations).render "MODULE_M_ENABLED") =
        [.opening "MODULE_M_ENABLED", .entry "a", .entry "b", .closing "MODULE_M_ENABLED",
          .other ""] ∧
      (ofObservations fewObservations).contains reservedSymbol = false ∧
      (Observation.captured fewObservations).encard = 3 := by
  have same : ∀ o, o ∈ fewObservations.reverse ++ fewObservations ↔ o ∈ fewObservations := by
    intro o
    rw [List.mem_append, List.mem_reverse, or_self]
  have oneLine : '\n' ∉ "MODULE_M_ENABLED".toList := by decide +kernel
  obtain ⟨tabulates, reordered, lines, size⟩ := ofObservations_tabulates same oneLine
  have counted : (Collector.ofObservations fewObservations).size = 3 := by decide +kernel
  refine ⟨reordered, ?_, ?_, ?_⟩
  · rw [lines, ofObservations_fewObservations]
    rfl
  · rw [Bool.eq_false_iff, Ne, tabulates.contains_iff, tabulates.mem_iff]
    exact fun member => member.2 rfl
  · rw [← size, counted]
    rfl

end SymbolTable

end BindingGen
