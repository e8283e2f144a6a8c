import BindingGen.Fragment.Text
import BindingGen.Note
import BindingGen.Symbol.Scan

/-!
The table of interned strings. A collector gathers the references of every fragment it is shown,
each once, in the order of their first sight. The finished table is in ascending order and leaves
out the one string that the runtime always interns.
-/

namespace BindingGen

/-- The string that the runtime always interns. -/
def reservedSymbol : String := "__name__"

/-- The strings seen so far, the latest first. -/
structure Collector where
  seen : List String
  deriving DecidableEq, Repr

namespace Collector

/-- The collector that has seen nothing. -/
def empty : Collector := ⟨[]⟩

/-- The number of strings seen. -/
def size (c : Collector) : Nat := c.seen.length

/-- Adds a string unless it has been seen. -/
def insert (c : Collector) (symbol : String) : Collector :=
  if c.seen.contains symbol then c else ⟨symbol :: c.seen⟩

/-- An insertion adds its string and no other. -/
@[simp] theorem mem_seen_insert (c : Collector) (symbol other : String) :
    other ∈ (c.insert symbol).seen ↔ other ∈ c.seen ∨ other = symbol := by
  unfold insert
  split <;> simp_all [or_comm]

/-- No string is seen twice. -/
theorem nodup_seen_insert {c : Collector} (h : c.seen.Nodup) (symbol : String) :
    (c.insert symbol).seen.Nodup := by
  unfold insert
  split <;> simp_all

/-- Adds every string that a text refers to. -/
def observeText (c : Collector) (text : String) : Collector :=
  (Symbol.references text).foldl insert c

/-- An observation adds the references of its text and no other string. -/
@[simp] theorem mem_seen_observeText (c : Collector) (text symbol : String) :
    symbol ∈ (c.observeText text).seen ↔ symbol ∈ c.seen ∨ symbol ∈ Symbol.references text := by
  unfold observeText
  induction Symbol.references text generalizing c with
  | nil => simp
  | cons first rest ih => simp [ih, or_assoc]

/-- Adds every string that a fragment refers to. -/
def observe (c : Collector) (fragment : Fragment) : Collector := c.observeText fragment.text

/-- The strings that an observation added, in the order they were met. -/
def added (before after : Collector) : List String :=
  (after.seen.take (after.size - before.size)).reverse

/-- What an observation tells: every string it added. -/
def notes (before after : Collector) : List Note :=
  (added before after).map fun symbol => ⟨.trace, "new symbol " ++ inQuotes symbol⟩

end Collector

/-- A finished table. -/
structure SymbolTable where
  symbols : Array String
  deriving DecidableEq, Repr

namespace SymbolTable

/-- The table of what a collector has seen. -/
def ofCollector (c : Collector) : SymbolTable :=
  ⟨((c.seen.filter (· != reservedSymbol)).mergeSort (· ≤ ·)).toArray⟩

/-- The symbols of a table in order. -/
def toList (table : SymbolTable) : List String := table.symbols.toList

/-- Whether a string is among the entries from `low` up to `high`, found by halving. -/
def searchIn (symbols : Array String) (symbol : String) (low high : Nat) : Bool :=
  if low < high then
    let middle := (low + high) / 2
    match symbols[middle]? with
    | none => false
    | some other =>
      if symbol = other then true
      else if symbol < other then searchIn symbols symbol low middle
      else searchIn symbols symbol (middle + 1) high
  else false
termination_by high - low
decreasing_by all_goals omega

/-- Whether a string is in a table. -/
def contains (table : SymbolTable) (symbol : String) : Bool :=
  searchIn table.symbols symbol 0 table.symbols.size

/-- The line of a symbol. -/
def entryText (symbol : String) : String := "Q(" ++ symbol ++ ")\n"

/-- The text of a table under a condition. -/
def render (table : SymbolTable) (guard : String) : String :=
  "#if " ++ guard ++ "\n" ++ String.join (table.toList.map entryText) ++ "#endif // " ++ guard ++
    "\n"

end SymbolTable

end BindingGen
