import BindingGen.Proofs.Symbol.Scan
import BindingGen.Proofs.Text.ByteOrder
import BindingGen.Symbol.Table

/-!
# Finished tables

What a collector has seen after any number of observations, and what remains of it in the finished
table: every string that was seen but the reserved one (`mem_ofCollector`), in strictly ascending
order of bytes (`ofCollector_pairwise`). A table in that order is fixed by what it lists
(`eq_of_mem_iff`), and halving finds in it whatever stands between the bounds (`searchIn_iff`).
-/

namespace BindingGen

namespace Collector

/-- Observing texts one after the other adds their references and no other string. -/
theorem mem_seen_foldl_observeText (texts : List String) (c : Collector) (symbol : String) :
    symbol ∈ (texts.foldl observeText c).seen ↔
      symbol ∈ c.seen ∨ symbol ∈ texts.flatMap Symbol.references := by
  induction texts generalizing c with
  | nil => simp
  | cons text rest ih =>
    rw [List.foldl_cons, ih, mem_seen_observeText, List.flatMap_cons, List.mem_append, or_assoc]

theorem nodup_seen_observeText {c : Collector} (distinct : c.seen.Nodup) (text : String) :
    (c.observeText text).seen.Nodup := by
  unfold observeText
  induction Symbol.references text generalizing c with
  | nil => exact distinct
  | cons symbol rest ih => exact ih (nodup_seen_insert distinct symbol)

/-- No run of observations sees a string twice. -/
theorem nodup_seen_foldl_observeText (texts : List String) {c : Collector}
    (distinct : c.seen.Nodup) : (texts.foldl observeText c).seen.Nodup := by
  induction texts generalizing c with
  | nil => exact distinct
  | cons text rest ih => exact ih (nodup_seen_observeText distinct text)

/-- Fragments are observed by their texts. -/
theorem foldl_observe (fragments : List Fragment) (c : Collector) :
    fragments.foldl observe c = (fragments.map Fragment.text).foldl observeText c := by
  rw [List.foldl_map]
  rfl

end Collector

namespace SymbolTable

theorem toList_ofCollector (c : Collector) :
    (ofCollector c).toList = (c.seen.filter (· != reservedSymbol)).mergeSort (· ≤ ·) := rfl

/-- A table holds what was seen, without the reserved string. -/
theorem mem_ofCollector {c : Collector} {symbol : String} :
    symbol ∈ (ofCollector c).toList ↔ symbol ≠ reservedSymbol ∧ symbol ∈ c.seen := by
  rw [toList_ofCollector, List.mem_mergeSort, List.mem_filter, bne_iff_ne, and_comm]

/-- A table ascends strictly in the order of bytes. -/
theorem ofCollector_pairwise {c : Collector} (distinct : c.seen.Nodup) :
    (ofCollector c).toList.Pairwise fun a b => Text.bytes a < Text.bytes b := by
  have sorted : (ofCollector c).toList.Pairwise fun a b => decide (a ≤ b) = true := by
    refine List.pairwise_mergeSort ?_ ?_ (c.seen.filter (· != reservedSymbol))
    · intro a b d ab bd
      exact decide_eq_true (String.le_trans (of_decide_eq_true ab) (of_decide_eq_true bd))
    · intro a b
      simpa using String.le_total a b
  have unique : (ofCollector c).toList.Nodup := by
    rw [toList_ofCollector, (List.mergeSort_perm _ _).nodup_iff]
    exact distinct.filter _
  refine (sorted.and unique).imp fun {a b} ⟨le, ne⟩ => Text.bytes_lt_iff.mpr ?_
  refine Decidable.byContradiction fun notLess => ne ?_
  exact String.le_antisymm (of_decide_eq_true le) notLess

/-! ## Tables that ascend -/

/-- The entries ascend strictly in the order of bytes. -/
def Ascending (symbols : List String) : Prop :=
  symbols.Pairwise fun a b => Text.bytes a < Text.bytes b

theorem Ascending.nodup {symbols : List String} (ascending : Ascending symbols) :
    symbols.Nodup := by
  refine List.Pairwise.imp ?_ ascending
  rintro a _ less rfl
  exact List.lt_irrefl _ less

/-- Two tables in ascending order that list the same strings are the same table. -/
theorem eq_of_mem_iff {a b : SymbolTable} (first : Ascending a.toList)
    (second : Ascending b.toList) (members : ∀ s, s ∈ a.toList ↔ s ∈ b.toList) : a = b := by
  have same : a.toList = b.toList := by
    refine List.Perm.eq_of_pairwise ?_ first second
      ((List.perm_ext_iff_of_nodup first.nodup second.nodup).mpr members)
    exact fun x y _ _ less greater => absurd greater (List.lt_asymm less)
  exact congrArg SymbolTable.mk (Array.toList_inj.mp same)

/-! ## Search by halving -/

theorem Ascending.lt_of_getElem? {symbols : List String} (ascending : Ascending symbols)
    {i j : Nat} {a b : String} (before : i < j) (first : symbols[i]? = some a)
    (second : symbols[j]? = some b) : a < b := by
  obtain ⟨_, rfl⟩ := List.getElem?_eq_some_iff.mp first
  obtain ⟨_, rfl⟩ := List.getElem?_eq_some_iff.mp second
  exact Text.bytes_lt_iff.mp (List.pairwise_iff_getElem.mp ascending i j _ _ before)

/-- Of two entries, the smaller one stands first. -/
theorem Ascending.index_lt {symbols : List String} (ascending : Ascending symbols)
    {i j : Nat} {a b : String} (less : a < b) (first : symbols[i]? = some a)
    (second : symbols[j]? = some b) : i < j := by
  rcases Nat.lt_trichotomy i j with before | rfl | behind
  · exact before
  · cases first.symm.trans second
    exact absurd less (String.lt_irrefl a)
  · exact absurd (ascending.lt_of_getElem? behind second first) (String.lt_asymm less)

/-- Halving finds a string if and only if it stands between the two bounds. -/
theorem searchIn_iff {symbols : Array String} (ascending : Ascending symbols.toList)
    {symbol : String} {low high : Nat} (inside : high ≤ symbols.size) :
    searchIn symbols symbol low high = true ↔
      ∃ i, low ≤ i ∧ i < high ∧ symbols.toList[i]? = some symbol := by
  fun_induction searchIn symbols symbol low high with
  | case1 low high bounds middle absent =>
    have half : middle = (low + high) / 2 := rfl
    have outside : symbols.size ≤ middle := Array.getElem?_eq_none_iff.mp absent
    omega
  | case2 low high bounds middle found =>
    have half : middle = (low + high) / 2 := rfl
    rw [← Array.getElem?_toList] at found
    exact iff_of_true rfl ⟨middle, by omega, by omega, found⟩
  | case3 low high bounds middle other found differs less ih =>
    have half : middle = (low + high) / 2 := rfl
    rw [← Array.getElem?_toList] at found
    rw [ih (by omega)]
    constructor
    · rintro ⟨i, lower, upper, stands⟩
      exact ⟨i, lower, by omega, stands⟩
    · rintro ⟨i, lower, -, stands⟩
      exact ⟨i, lower, ascending.index_lt less stands found, stands⟩
  | case4 low high bounds middle other found differs notLess ih =>
    have half : middle = (low + high) / 2 := rfl
    rw [← Array.getElem?_toList] at found
    rw [ih inside]
    constructor
    · rintro ⟨i, lower, upper, stands⟩
      exact ⟨i, by omega, upper, stands⟩
    · rintro ⟨i, -, upper, stands⟩
      refine ⟨i, Nat.lt_of_not_ge fun notAbove => ?_, upper, stands⟩
      rcases Nat.lt_or_eq_of_le notAbove with before | rfl
      · exact notLess (ascending.lt_of_getElem? before stands found)
      · exact differs (Option.some.inj (stands.symm.trans found))
  | case5 low high bounds =>
    refine iff_of_false Bool.false_ne_true ?_
    rintro ⟨i, lower, upper, -⟩
    omega

/-- A table answers that it contains a string if and only if it lists it. -/
theorem contains_iff {table : SymbolTable} (ascending : Ascending table.toList) {symbol : String} :
    table.contains symbol = true ↔ symbol ∈ table.toList := by
  rw [contains, searchIn_iff ascending (Nat.le_refl _), List.mem_iff_getElem?]
  refine exists_congr fun i => ⟨fun found => found.2.2, fun stands => ⟨Nat.zero_le i, ?_, stands⟩⟩
  obtain ⟨bound, -⟩ := List.getElem?_eq_some_iff.mp stands
  rwa [toList, Array.length_toList] at bound

end SymbolTable

end BindingGen
