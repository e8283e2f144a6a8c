/-!
Paths as they are written: segments with a slash between any two. Empty segments are kept, so that a
path is shown as it was given.
-/

namespace BindingGen.Files

/-- The parts of a text between its slashes. -/
def splitSlashes : List Char → List (List Char)
  | [] => [[]]
  | '/' :: rest => [] :: splitSlashes rest
  | c :: rest =>
    match splitSlashes rest with
    | [] => [[c]]
    | segment :: segments => (c :: segment) :: segments

/-- A text has at least one part. -/
theorem splitSlashes_ne_nil (cs : List Char) : splitSlashes cs ≠ [] := by
  fun_cases splitSlashes cs <;> simp

/-- The parts of a text with their slashes are the text. -/
theorem intercalate_splitSlashes (cs : List Char) : ['/'].intercalate (splitSlashes cs) = cs := by
  fun_induction splitSlashes cs with
  | case1 => rfl
  | case2 rest ih =>
    cases h : splitSlashes rest with
    | nil => exact absurd h (splitSlashes_ne_nil rest)
    | cons segment segments => simp_all [List.intercalate]
  | case3 c rest _ h => exact absurd h (splitSlashes_ne_nil rest)
  | case4 c rest _ segment segments h ih =>
    rw [h] at ih
    cases segments with
    | nil => simp_all [List.intercalate]
    | cons next later => simp_all [List.intercalate]

/-- A path as it is written. -/
structure Path where
  segments : List String
  deriving DecidableEq, Repr

namespace Path

/-- The path that a text spells. -/
def ofText (s : String) : Path := ⟨(splitSlashes s.toList).map String.ofList⟩

/-- The text of a path. -/
def text (path : Path) : String := "/".intercalate path.segments

/-- A path is shown as it was given. -/
theorem text_ofText (s : String) : (ofText s).text = s := by
  apply String.toList_inj.1
  simp [text, ofText, String.toList_intercalate, intercalate_splitSlashes, Function.comp_def]

/-- Whether a path is the empty text. -/
def isEmpty (path : Path) : Bool := path.segments.all (·.isEmpty) && path.segments.length ≤ 1

/-- The path of a file below a directory. A directory written with a final slash gets no second
one. -/
def join (dir : Path) (name : String) : Path :=
  if dir.segments.getLast? = some "" then ⟨dir.segments.dropLast ++ [name]⟩
  else ⟨dir.segments ++ [name]⟩

example : (ofText "a//b/").segments = ["a", "", "b", ""] := by decide +kernel
example : ((ofText "").join "f").text = "f" ∧ ((ofText "out/").join "f").text = "out/f" ∧
    ((ofText ".").join "f").text = "./f" := by decide +kernel

end Path

end BindingGen.Files
