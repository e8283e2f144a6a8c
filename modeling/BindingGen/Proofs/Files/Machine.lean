import BindingGen.Proofs.Files.Tree

/-!
# A file system that may interrupt operations

In a file tree an operation is refused only for what is in the tree. A machine also refuses
operations for reasons of its own: space runs out, a permission is missing, a disk fails. A
`Machine` is a tree with the interruptions that are still to come, one entry for each operation that
may be interrupted. Statements about all machines hold whatever is interrupted and when.

What an interruption leaves behind is what systems promise: a file that could not be staged is gone,
a file that could not be moved is where it was, and of the directories on the way of a path those up
to some segment have been made. Files are always removed where they can be.

Results:
1. `made_makeDirs`, `stage_cases`, `move_cases`: what comes of an operation, interrupted or not.
2. `Calm.bind`: what is computed without interruptions is computed on the tree alone.
-/

namespace BindingGen.Files

/-! ## Running a computation -/

section Running

variable {σ α β : Type}

/-- What a computation comes to from a state, and the state after it. -/
def runFrom (state : σ) (x : StateM σ α) : α × σ := x state

theorem runFrom_pure (state : σ) (a : α) : runFrom state (pure a) = (a, state) := rfl

theorem runFrom_bind (state : σ) (x : StateM σ α) (f : α → StateM σ β) :
    runFrom state (x >>= f) = runFrom (runFrom state x).2 (f (runFrom state x).1) := rfl

end Running

/-! ## Machines -/

/-- An interruption of an operation: the fault that is reported, and the number of segments of its
path for which directories have been made. -/
structure Interruption where
  fault : Fault
  segments : Nat

/-- A file tree on a machine, and for each of the operations to come whether it is interrupted. -/
structure Machine where
  tree : FileTree
  ahead : List (Option Interruption)

/-- The tree without the file at a path, or the tree as it is where no file can be removed. -/
def FileTree.discard (tree : FileTree) (path : Path) : FileTree :=
  (runFrom tree (FileSystem.remove path)).2

theorem FileTree.discard_join {tree : FileTree} {dir : Path} {place : Address} {name : String}
    {bytes : ByteArray} (found : tree.locateDir dir = .ok place) (named : IsShortName name)
    (held : tree.get? (place ++ [name]) = some (.file bytes)) :
    tree.discard (dir.join name) = tree.erase (place ++ [name]) := by
  simp only [discard, runFrom, FileSystem.remove, change, remove_join found named held, Except.map]

namespace Machine

/-- An operation on the tree of a machine, or what remains of it when it is interrupted. -/
def attempt {α : Type} (operation : StateM FileTree (Except Fault α))
    (remains : Interruption → FileTree → FileTree) : StateM Machine (Except Fault α) :=
  fun machine =>
  match machine.ahead.head?.join with
  | some interruption =>
    (.error interruption.fault, ⟨remains interruption machine.tree, machine.ahead.tail⟩)
  | none =>
    ((runFrom machine.tree operation).1, ⟨(runFrom machine.tree operation).2, machine.ahead.tail⟩)

/-- A machine is a file system. -/
instance : FileSystem (StateM Machine) where
  readText path := fun machine => (machine.tree.readText path, machine)
  present path := fun machine => (machine.tree.present path, machine)
  makeDirs path := attempt (FileSystem.makeDirs path) fun interruption tree =>
    (tree.makeDirs ⟨path.segments.take interruption.segments⟩).1
  stage dir text := attempt (FileSystem.stage dir text) fun _ tree => tree
  move source target := attempt (FileSystem.move source target) fun _ tree => tree
  remove path := fun machine =>
    ((runFrom machine.tree (FileSystem.remove path)).1,
      ⟨machine.tree.discard path, machine.ahead⟩)

variable {machine later : Machine} {path dir source target : Path}

/-- Whether or not it is interrupted, making directories makes directories on the way of the path
and changes nothing else. -/
theorem made_makeDirs (machine : Machine) (path : Path) :
    FileTree.Made path machine.tree
      ((runFrom machine (FileSystem.makeDirs path)).2.tree,
        (runFrom machine (FileSystem.makeDirs path)).1) := by
  have whole (path : Path) : FileTree.Made path machine.tree (machine.tree.makeDirs path) := by
    have made := FileTree.made_makeDirsFrom machine.tree path.segments.reverse
    rwa [List.reverse_reverse] at made
  simp only [FileSystem.makeDirs, runFrom, attempt]
  split
  · next interruption _ =>
    have part := (whole ⟨path.segments.take interruption.segments⟩).grown
    exact ⟨part.of_above (List.take_append_drop _ _), nofun⟩
  · exact whole path

theorem ahead_makeDirs (machine : Machine) (path : Path) :
    (runFrom machine (FileSystem.makeDirs path)).2.ahead = machine.ahead.tail := by
  simp only [FileSystem.makeDirs, runFrom, attempt]
  split <;> rfl

/-- An operation either has its effect, or is refused and leaves the tree alone. Without an
interruption it is refused only where the tree refuses it. -/
theorem attempt_change {α : Type} (operation : FileTree → Except Fault (FileTree × α))
    (machine : Machine) :
    (∃ tree value, operation machine.tree = .ok (tree, value) ∧
      runFrom machine (attempt (FileTree.change operation) fun _ tree => tree) =
        (.ok value, ⟨tree, machine.ahead.tail⟩)) ∨
    (∃ fault, (machine.ahead = [] → operation machine.tree = .error fault) ∧
      runFrom machine (attempt (FileTree.change operation) fun _ tree => tree) =
        (.error fault, ⟨machine.tree, machine.ahead.tail⟩)) := by
  simp only [runFrom, attempt, FileTree.change]
  split
  · next interruption interrupted =>
    refine .inr ⟨interruption.fault, fun calm => ?_, rfl⟩
    rw [calm] at interrupted
    cases interrupted
  · cases applied : operation machine.tree with
    | ok changed => exact .inl ⟨changed.1, changed.2, rfl, rfl⟩
    | error fault => exact .inr ⟨fault, fun _ => rfl, rfl⟩

theorem stage_cases (machine : Machine) (dir : Path) (text : String) :
    (∃ tree path, machine.tree.stage dir text = .ok (tree, path) ∧
      runFrom machine (FileSystem.stage dir text) =
        (.ok path, ⟨tree, machine.ahead.tail⟩)) ∨
    (∃ fault, (machine.ahead = [] → machine.tree.stage dir text = .error fault) ∧
      runFrom machine (FileSystem.stage dir text) =
        (.error fault, ⟨machine.tree, machine.ahead.tail⟩)) :=
  attempt_change (fun tree => tree.stage dir text) machine

theorem move_cases (machine : Machine) (source target : Path) :
    (∃ tree, machine.tree.move source target = .ok tree ∧
      runFrom machine (FileSystem.move source target) =
        (.ok (), ⟨tree, machine.ahead.tail⟩)) ∨
    (∃ fault, (machine.ahead = [] → machine.tree.move source target = .error fault) ∧
      runFrom machine (FileSystem.move source target) =
        (.error fault, ⟨machine.tree, machine.ahead.tail⟩)) := by
  rcases attempt_change (fun tree => (tree.move source target).map (·, ())) machine with
    ⟨tree, ⟨⟩, applied, equal⟩ | ⟨fault, refused, equal⟩
  · cases moved : machine.tree.move source target with
    | error fault =>
      rw [moved] at applied
      cases applied
    | ok changed =>
      rw [moved] at applied
      cases applied
      exact .inl ⟨tree, rfl, equal⟩
  · refine .inr ⟨fault, fun calm => ?_, equal⟩
    have same := refused calm
    cases moved : machine.tree.move source target with
    | error other =>
      rw [moved] at same
      cases same
      rfl
    | ok changed =>
      rw [moved] at same
      cases same

end Machine

/-! ## Machines that interrupt nothing -/

/-- `Calm x y`: on a machine without interruptions `y` does what `x` does on its tree. -/
def Calm {α : Type} (x : StateM FileTree α) (y : StateM Machine α) : Prop :=
  ∀ tree, runFrom ⟨tree, []⟩ y = ((runFrom tree x).1, ⟨(runFrom tree x).2, []⟩)

namespace Calm

theorem pure {α : Type} (a : α) : Calm (pure a) (pure a) := fun _ => rfl

theorem bind {α β : Type} {x : StateM FileTree α} {y : StateM Machine α}
    {f : α → StateM FileTree β} {g : α → StateM Machine β} (first : Calm x y)
    (rest : ∀ a, Calm (f a) (g a)) : Calm (x >>= f) (y >>= g) := by
  intro tree
  rw [runFrom_bind, runFrom_bind, first tree, rest]

theorem present (path : Path) : Calm (FileSystem.present path) (FileSystem.present path) :=
  fun _ => rfl

theorem makeDirs (path : Path) : Calm (FileSystem.makeDirs path) (FileSystem.makeDirs path) :=
  fun _ => rfl

theorem stage (dir : Path) (text : String) :
    Calm (FileSystem.stage dir text) (FileSystem.stage dir text) :=
  fun _ => rfl

theorem move (source target : Path) :
    Calm (FileSystem.move source target) (FileSystem.move source target) :=
  fun _ => rfl

theorem remove (path : Path) : Calm (FileSystem.remove path) (FileSystem.remove path) :=
  fun _ => rfl

end Calm

end BindingGen.Files
