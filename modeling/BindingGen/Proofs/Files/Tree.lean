import BindingGen.Files.Tree
import Mathlib.Data.List.Basic

/-!
# What operations do to a file tree

A tree is judged by what is at its addresses. Every operation changes few of them, and none takes a
directory away; so a path that leads to a directory before an operation leads to the same one
afterwards, and the addresses of the files in a directory need to be found once only.

Results:
1. `walk_mono`: what leads somewhere still does while directories are kept.
2. `locate_join`: a path below a directory leads to the name in this directory.
3. `of_stage`, `move_join_eq_ok_iff`, `remove_join`: the operations on single files.
4. `made_makeDirsFrom`: making directories adds directories on the way of the path and nothing else,
   and when it succeeds the path leads to a directory.
-/

namespace BindingGen.Files

namespace FileTree

variable {tree before after : FileTree} {address other place : Address} {name : String}
  {path dir : Path}

/-! ## Addresses -/

theorem get?_set (h : address ≠ []) (node : Node) :
    (tree.set address node).get? other =
      if other = address then some node else tree.get? other := by
  split
  · next same => rw [same, get?_set_self tree node h]
  · next beside => exact get?_set_of_ne tree node beside

theorem get?_erase (h : address ≠ []) :
    (tree.erase address).get? other = if other = address then none else tree.get? other := by
  split
  · next same => rw [same, get?_erase_self tree h]
  · next beside => exact get?_erase_of_ne tree beside

/-- Every directory of one tree is a directory of the other. -/
def KeepsDirectories (before after : FileTree) : Prop :=
  ∀ address, before.get? address = some .directory → after.get? address = some .directory

/-- Directories are kept where nothing but other addresses changes. -/
theorem KeepsDirectories.of_others {changed : List Address}
    (free : ∀ address ∈ changed, before.get? address ≠ some .directory)
    (others : ∀ address ∉ changed, after.get? address = before.get? address) :
    KeepsDirectories before after := by
  intro address directory
  rw [others, directory]
  exact fun taken => free address taken directory

theorem KeepsDirectories.of_get?_eq
    (same : ∀ address, after.get? address = before.get? address) : KeepsDirectories before after :=
  fun address directory => (same address).trans directory

theorem ne_nil_of_get?_ne (h : tree.get? address ≠ some .directory) : address ≠ [] := by
  rintro rfl
  exact h rfl

theorem keepsDirectories_set (h : tree.get? address ≠ some .directory) (node : Node) :
    KeepsDirectories tree (tree.set address node) := by
  intro other directory
  rw [get?_set (ne_nil_of_get?_ne h), if_neg, directory]
  rintro rfl
  exact h directory

theorem keepsDirectories_erase (h : tree.get? address ≠ some .directory) :
    KeepsDirectories tree (tree.erase address) := by
  intro other directory
  rw [get?_erase (ne_nil_of_get?_ne h), if_neg, directory]
  rintro rfl
  exact h directory

/-! ## Ways through a tree -/

theorem step_of_directory (directory : tree.get? address = some .directory) :
    tree.step address name =
      if name = "" ∨ name = "." then .ok address
      else if name = ".." then .ok address.dropLast
      else if longestName < name.utf8ByteSize then .error .nameTooLong
      else .ok (address ++ [name]) := by
  simp only [step, directory]

theorem get?_of_step (stepped : tree.step address name = .ok other) :
    tree.get? address = some .directory := by
  unfold step at stepped
  split at stepped
  · cases stepped
  · cases stepped
  · assumption

theorem step_empty_eq_ok_iff :
    tree.step address "" = .ok other ↔ other = address ∧ tree.get? address = some .directory := by
  constructor
  · intro stepped
    have directory := get?_of_step stepped
    rw [step_of_directory directory, if_pos (.inl rfl)] at stepped
    cases stepped
    exact ⟨rfl, directory⟩
  · rintro ⟨rfl, directory⟩
    rw [step_of_directory directory, if_pos (.inl rfl)]

theorem walk_cons_eq_ok_iff {names : List String} :
    tree.walk address (name :: names) = .ok other ↔
      ∃ next, tree.step address name = .ok next ∧ tree.walk next names = .ok other := by
  rw [walk]
  cases tree.step address name with
  | ok next => simp
  | error fault => simp

theorem walk_append {names more : List String} :
    tree.walk address (names ++ more) =
      tree.walk address names >>= fun next => tree.walk next more := by
  induction names generalizing address with
  | nil => rfl
  | cons name names ih =>
    rw [List.cons_append, walk, walk]
    cases tree.step address name with
    | ok next => exact ih
    | error fault => rfl

theorem walk_singleton : tree.walk address [name] = tree.step address name := by
  rw [walk]
  cases tree.step address name <;> rfl

/-- What leads somewhere still does when no directory has been taken away. -/
theorem walk_mono (keeps : KeepsDirectories before after) {names : List String}
    (found : before.walk address names = .ok other) : after.walk address names = .ok other := by
  induction names generalizing address with
  | nil => exact found
  | cons name names ih =>
    obtain ⟨next, stepped, rest⟩ := walk_cons_eq_ok_iff.mp found
    have directory := get?_of_step stepped
    refine walk_cons_eq_ok_iff.mpr ⟨next, ?_, ih rest⟩
    rw [step_of_directory (keeps _ directory), ← step_of_directory directory, stepped]

theorem locate_mono (keeps : KeepsDirectories before after)
    (found : before.locate path = .ok address) : after.locate path = .ok address :=
  walk_mono keeps found

theorem locateDir_mono (keeps : KeepsDirectories before after)
    (found : before.locateDir path = .ok address) : after.locateDir path = .ok address :=
  walk_mono keeps found

theorem walk_empty_eq_ok_iff {names : List String} :
    tree.walk place (names ++ [""]) = .ok address ↔
      tree.walk place names = .ok address ∧ tree.get? address = some .directory := by
  rw [walk_append]
  cases tree.walk place names with
  | error fault => exact iff_of_false nofun fun found => nomatch found.1
  | ok next =>
    change tree.walk next [""] = .ok address ↔ _
    rw [walk_singleton, step_empty_eq_ok_iff]
    constructor
    · rintro ⟨rfl, directory⟩
      exact ⟨rfl, directory⟩
    · rintro ⟨⟨⟩, directory⟩
      exact ⟨rfl, directory⟩

theorem locateDir_eq_ok_iff :
    tree.locateDir path = .ok address ↔
      tree.locate path = .ok address ∧ tree.get? address = some .directory :=
  walk_empty_eq_ok_iff

theorem isDirectory_iff :
    tree.isDirectory path = true ↔ ∃ address, tree.locateDir path = .ok address := by
  simp only [locateDir_eq_ok_iff]
  unfold isDirectory find
  cases tree.locate path with
  | error fault => simp
  | ok address =>
    cases found : tree.get? address with
    | none => simp [found]
    | some node =>
      cases node with
      | file bytes => simp [found]
      | directory => simp [found]

/-! ## Files in a directory -/

end FileTree

/-- A segment that names something in a directory. -/
structure IsEntryName (name : String) : Prop where
  nonempty : name ≠ ""
  notHere : name ≠ "."
  notAbove : name ≠ ".."

/-- A name that no system refuses. -/
structure IsShortName (name : String) : Prop extends IsEntryName name where
  short : name.utf8ByteSize ≤ FileTree.longestName

namespace FileTree

variable {tree before after : FileTree} {address other place : Address} {name : String}
  {path dir : Path}

/-- A path below a directory leads to the name in this directory. -/
theorem locate_join (found : tree.locateDir dir = .ok place) :
    tree.locate (dir.join name) = tree.step place name := by
  obtain ⟨located, directory⟩ := locateDir_eq_ok_iff.mp found
  have extended {names : List String} (front : tree.walk [] names = .ok place) :
      tree.walk [] (names ++ [name]) = tree.step place name := by
    rw [walk_append, front]
    exact walk_singleton
  unfold locate Path.join at *
  split
  · next final =>
    -- The empty segment behind a final slash leads nowhere else.
    have split : dir.segments = dir.segments.dropLast ++ [""] :=
      (List.dropLast_append_getLast? _ final).symm
    rw [split] at located
    exact extended (walk_empty_eq_ok_iff.mp located).1
  · exact extended located

/-- A name in a directory is found there unless it is too long. -/
theorem locate_entry (found : tree.locateDir dir = .ok place) (named : IsEntryName name) :
    tree.locate (dir.join name) =
      if longestName < name.utf8ByteSize then .error .nameTooLong else .ok (place ++ [name]) := by
  rw [locate_join found, step_of_directory (locateDir_eq_ok_iff.mp found).2,
    if_neg (not_or.mpr ⟨named.nonempty, named.notHere⟩), if_neg named.notAbove]

theorem locate_short (found : tree.locateDir dir = .ok place) (named : IsShortName name) :
    tree.locate (dir.join name) = .ok (place ++ [name]) := by
  rw [locate_entry found named.toIsEntryName, if_neg (Nat.not_lt_of_le named.short)]

theorem present_short (found : tree.locateDir dir = .ok place) (named : IsShortName name) :
    tree.present (dir.join name) = (tree.get? (place ++ [name])).isSome := by
  rw [present, find, locate_short found named]
  cases held : tree.get? (place ++ [name]) <;> simp [held, Except.isOk, Except.toBool]

theorem stagingName_toList (index : Nat) :
    (stagingName index).toList = '.' :: 't' :: 'm' :: 'p' :: (toString index).toList := by
  rw [stagingName, String.toList_append]
  rfl

theorem isEntryName_stagingName (index : Nat) : IsEntryName (stagingName index) := by
  have other {name : String} (h : name.toList.length < 4) : stagingName index ≠ name := by
    rintro rfl
    rw [stagingName_toList] at h
    simp only [List.length_cons] at h
    omega
  exact ⟨other (by decide), other (by decide), other (by decide)⟩

/-- A file is staged in a directory under a staging name that nothing there has. -/
theorem of_stage {text : String} {staged : Path}
    (succeeds : tree.stage dir text = .ok (after, staged)) :
    ∃ place index, tree.locateDir dir = .ok place ∧ IsShortName (stagingName index) ∧
      tree.get? (place ++ [stagingName index]) = none ∧
      after = tree.set (place ++ [stagingName index]) (.file text.toUTF8) ∧
      staged = dir.join (stagingName index) := by
  unfold stage at succeeds
  split at succeeds
  · cases succeeds
  · next place found =>
    split at succeeds
    · cases succeeds
    · next name fresh =>
      cases succeeds
      have chosen := List.find?_some fresh
      obtain ⟨index, -, rfl⟩ := List.mem_map.mp (List.mem_of_find?_eq_some fresh)
      obtain ⟨short, absent⟩ := Bool.and_eq_true_iff.mp chosen
      exact ⟨place, index, found, ⟨isEntryName_stagingName index, of_decide_eq_true short⟩,
        Option.isNone_iff_eq_none.mp absent, rfl, rfl⟩

/-- Moving a file within a directory takes the place of another file or of nothing. -/
theorem move_join_eq_ok_iff {source target : String} {bytes : ByteArray}
    (found : tree.locateDir dir = .ok place) (leaving : IsShortName source)
    (entering : IsEntryName target) (held : tree.get? (place ++ [source]) = some (.file bytes)) :
    tree.move (dir.join source) (dir.join target) = .ok after ↔
      target.utf8ByteSize ≤ longestName ∧ tree.get? (place ++ [target]) ≠ some .directory ∧
        after = (tree.erase (place ++ [source])).set (place ++ [target]) (.file bytes) := by
  rw [move, locate_short found leaving, locate_entry found entering]
  by_cases long : longestName < target.utf8ByteSize
  · rw [if_pos long]
    exact iff_of_false nofun fun fits => Nat.not_le_of_lt long fits.1
  · rw [if_neg long]
    simp only [bind, Except.bind, held]
    cases tree.get? (place ++ [target]) with
    | none => simp [pure, Except.pure, Nat.le_of_not_lt long, eq_comm]
    | some node =>
      cases node with
      | directory => simp [throw, throwThe, MonadExceptOf.throw]
      | file old => simp [pure, Except.pure, Nat.le_of_not_lt long, eq_comm]

/-- A file that is moved takes no directory away. -/
theorem keepsDirectories_move {source target : Path} (moved : tree.move source target = .ok after) :
    KeepsDirectories tree after := by
  unfold move at moved
  cases origin : tree.locate source with
  | error fault =>
    rw [origin] at moved
    cases moved
  | ok leaving =>
    cases goal : tree.locate target with
    | error fault =>
      rw [origin, goal] at moved
      cases moved
    | ok entered =>
      rw [origin, goal] at moved
      simp only [bind, Except.bind] at moved
      split at moved
      · cases moved
      · cases moved
      · cases moved
      · next bytes file free =>
        cases moved
        have gone : tree.get? leaving ≠ some .directory := by simp [file]
        have erased := keepsDirectories_erase gone
        have clear : (tree.erase leaving).get? entered ≠ some .directory := by
          rw [get?_erase (ne_nil_of_get?_ne gone)]
          split
          · exact nofun
          · exact free
        intro address directory
        exact keepsDirectories_set clear _ address (erased address directory)

/-- A file in a directory can be removed. -/
theorem remove_join {bytes : ByteArray} (found : tree.locateDir dir = .ok place)
    (named : IsShortName name) (held : tree.get? (place ++ [name]) = some (.file bytes)) :
    tree.remove (dir.join name) = .ok (tree.erase (place ++ [name])) := by
  rw [remove, locate_short found named]
  simp only [bind, Except.bind, held]
  rfl

/-! ## Directories that are made -/

/-- A directory that was made for a path: nothing was there, and now the path or one of those above
it leads there. -/
structure MadeFor (path : Path) (before after : FileTree) (address : Address) : Prop where
  absent : before.get? address = none
  directory : after.get? address = some .directory
  onTheWay : ∃ count, after.locate ⟨path.segments.take count⟩ = .ok address

/-- Directories were made for a path, and nothing else has changed. -/
def Grown (path : Path) (before after : FileTree) : Prop :=
  ∀ address, after.get? address = before.get? address ∨ MadeFor path before after address

namespace Grown

theorem refl : Grown path tree tree := fun _ => .inl rfl

theorem keepsDirectories (grown : Grown path before after) : KeepsDirectories before after := by
  intro address directory
  rcases grown address with same | made
  · rw [same, directory]
  · exact made.directory

theorem trans {middle : FileTree} (first : Grown path before middle)
    (second : Grown path middle after) : Grown path before after := by
  intro address
  rcases second address with same | made
  · rcases first address with unchanged | ⟨absent, directory, count, located⟩
    · exact .inl (same.trans unchanged)
    · exact .inr ⟨absent, same.trans directory, count,
        locate_mono second.keepsDirectories located⟩
  · rcases first address with unchanged | ⟨-, directory, -⟩
    · exact .inr ⟨unchanged.symm.trans made.absent, made.directory, made.onTheWay⟩
    · cases directory.symm.trans made.absent

/-- What was made for a path above was made for the path. -/
theorem of_above {front back : List String} (grown : Grown ⟨front⟩ before after)
    (split : front ++ back = path.segments) : Grown path before after := by
  intro address
  rcases grown address with same | ⟨absent, directory, count, located⟩
  · exact .inl same
  · refine .inr ⟨absent, directory, min count front.length, ?_⟩
    rw [← split, List.take_append_of_le_length (Nat.min_le_right _ _), ← List.take_eq_take_min]
    exact located

end Grown

/-- A directory that is made is new, and its path leads there. -/
theorem of_makeDir {reversed : List String} {made : FileTree}
    (succeeds : tree.makeDir reversed = .ok made) :
    ∃ address, tree.get? address = none ∧ made = tree.set address .directory ∧
      made.locateDir ⟨reversed.reverse⟩ = .ok address := by
  induction reversed with
  | nil => cases succeeds
  | cons name names ih =>
    by_cases blank : name = ""
    · subst blank
      obtain ⟨address, absent, rfl, located⟩ := ih succeeds
      refine ⟨address, absent, rfl, ?_⟩
      unfold locateDir
      rw [List.reverse_cons]
      exact walk_empty_eq_ok_iff.mpr ⟨located, (locateDir_eq_ok_iff.mp located).2⟩
    · have stops : (name :: names).dropWhile (· == "") = name :: names := by simp [blank]
      rw [makeDir, stops] at succeeds
      dsimp only at succeeds
      cases found : tree.walk [] (names.reverse ++ [""]) with
      | error fault =>
        rw [found] at succeeds
        cases succeeds
      | ok parent =>
        rw [found] at succeeds
        simp only [ite_eq_iff, reduceCtorEq, and_false, false_or, Except.ok.injEq] at succeeds
        obtain ⟨special, short, absent, rfl⟩ := succeeds
        obtain ⟨way, directory⟩ := walk_empty_eq_ok_iff.mp found
        rw [Option.not_isSome_iff_eq_none] at absent
        have new : tree.get? (parent ++ [name]) ≠ some .directory := by simp [absent]
        have keeps := keepsDirectories_set new .directory
        refine ⟨parent ++ [name], absent, rfl, ?_⟩
        rw [locateDir_eq_ok_iff, get?_set (ne_nil_of_get?_ne new), if_pos rfl, locate,
          List.reverse_cons, walk_append, walk_mono keeps way]
        refine ⟨?_, rfl⟩
        change walk _ parent [name] = _
        rw [walk_singleton, step_of_directory (keeps _ directory), if_neg, if_neg, if_neg short]
        · exact fun above => special (.inr above)
        · rintro (empty | here)
          · exact blank empty
          · exact special (.inl here)

theorem grown_of_makeDir {reversed : List String} {made : FileTree}
    (succeeds : tree.makeDir reversed = .ok made) : Grown ⟨reversed.reverse⟩ tree made := by
  obtain ⟨address, absent, rfl, located⟩ := of_makeDir succeeds
  have new : tree.get? address ≠ some .directory := by simp [absent]
  obtain ⟨way, directory⟩ := locateDir_eq_ok_iff.mp located
  intro other
  by_cases same : other = address
  · subst same
    refine .inr ⟨absent, directory, reversed.reverse.length, ?_⟩
    rw [List.take_length]
    exact way
  · rw [get?_set (ne_nil_of_get?_ne new), if_neg same]
    exact .inl rfl

/-- The path above is what a path begins with. -/
theorem exists_above (reversed : List String) :
    ∃ back, (above reversed).reverse ++ back = reversed.reverse := by
  obtain ⟨idle, split⟩ := (List.dropWhile_suffix isIdle : reversed.dropWhile isIdle <:+ reversed)
  obtain ⟨last, rest⟩ := List.drop_suffix 1 (reversed.dropWhile isIdle)
  refine ⟨(idle ++ last).reverse, ?_⟩
  rw [above, ← List.reverse_append, List.append_assoc, rest, split]

/-- What comes of making directories: directories on the way of the path, and when it succeeds the
path leads to one. -/
structure Made (path : Path) (before : FileTree) (outcome : FileTree × Except Fault Unit) :
    Prop where
  grown : Grown path before outcome.1
  located : outcome.2 = .ok () → ∃ place, outcome.1.locateDir path = .ok place

theorem made_makeDirsFrom (tree : FileTree) (reversed : List String) :
    Made ⟨reversed.reverse⟩ tree (tree.makeDirsFrom reversed) := by
  have present {path : Path} {before after : FileTree} (grown : Grown path before after)
      (fault : Fault) : Made path before
        (if after.isDirectory path = true then (after, .ok ()) else (after, .error fault)) := by
    split
    · next directory => exact ⟨grown, fun _ => isDirectory_iff.mp directory⟩
    · exact ⟨grown, nofun⟩
  fun_induction makeDirsFrom tree reversed with
  | case1 => exact ⟨.refl, fun _ => ⟨[], rfl⟩⟩
  | case2 name names path empty =>
    obtain ⟨blank, short⟩ := Bool.and_eq_true_iff.mp empty
    have alone : names = [] := by simpa [path] using short
    subst alone
    have blank : name = "" := by simpa [path] using blank
    subst blank
    exact ⟨.refl, fun _ => ⟨[], rfl⟩⟩
  | case3 name names path empty made succeeds =>
    obtain ⟨address, -, -, located⟩ := of_makeDir succeeds
    exact ⟨grown_of_makeDir succeeds, fun _ => ⟨address, located⟩⟩
  | case4 name names path empty missing made fault failed ih =>
    rw [failed] at ih
    obtain ⟨back, split⟩ := exists_above (name :: names)
    exact ⟨ih.grown.of_above split, nofun⟩
  | case5 name names path empty missing middle succeeds made last ih =>
    rw [succeeds] at ih
    obtain ⟨back, split⟩ := exists_above (name :: names)
    obtain ⟨address, -, -, located⟩ := of_makeDir last
    exact ⟨(ih.grown.of_above split).trans (grown_of_makeDir last), fun _ => ⟨address, located⟩⟩
  | case6 name names path orPresent empty missing middle succeeds fault last ih =>
    rw [succeeds] at ih
    obtain ⟨back, split⟩ := exists_above (name :: names)
    exact present (ih.grown.of_above split) fault
  | case7 name names path orPresent empty fault other failed => exact present .refl fault

end FileTree

end BindingGen.Files
