import BindingGen.Proofs.Store.AllOrNothing

/-!
# What a failed call does to older files

A file that stands where an artifact is to be written is replaced when the artifact is moved into
place. When a later move fails, the artifact is removed again, but what it replaced does not come
back: taking back is done from the list of the files that were written.

Results:
1. `calm_write`: storing does to a tree what it does on a machine without interruptions.
2. `kept_of_failed`: whatever is interrupted, a failed call leaves every older file alone but the
   source file.
3. `keepsFiles_of_unforced`: without force no older file is lost, unless the path of the output
   directory comes to lead somewhere only during the call.
4. `write_loses_iff`: on a tree a call fails and loses an older file exactly when it replaces the
   source file and the table of symbols cannot be moved into place.
-/

namespace BindingGen.Store

open Files

/-! ## Storing in a tree -/

theorem calm_discardAll (paths : List Path) : Calm (discardAll paths) (discardAll paths) := by
  induction paths with
  | nil => exact .pure ()
  | cons path rest ih => exact (Calm.remove path).bind fun _ => ih

theorem calm_rollBack (paths : List Path) : Calm (rollBack paths) (rollBack paths) := by
  induction paths with
  | nil => exact .pure []
  | cons path rest ih => exact (Calm.remove path).bind fun _ => ih.bind fun _ => .pure _

theorem calm_presentOf (paths : List Path) : Calm (presentOf paths) (presentOf paths) := by
  induction paths with
  | nil => exact .pure []
  | cons path rest ih => exact (Calm.present path).bind fun _ => ih.bind fun _ => .pure _

theorem calm_stageAll (dir : Path) (files : List (Path × String)) :
    Calm (stageAll dir files) (stageAll dir files) := by
  induction files with
  | nil => exact .pure _
  | cons file rest ih =>
    refine (Calm.stage dir file.2).bind fun staged => ?_
    cases staged with
    | error fault => exact .pure _
    | ok path =>
      refine ih.bind fun later => ?_
      cases later.result with
      | ok moves => exact .pure _
      | error fault => exact (calm_discardAll _).bind fun _ => .pure _

theorem calm_placeAll (placed : List Path) (moves : List (Path × Path)) :
    Calm (placeAll placed moves) (placeAll placed moves) := by
  induction moves generalizing placed with
  | nil => exact .pure _
  | cons pair rest ih =>
    refine (Calm.move pair.2 pair.1).bind fun moved => ?_
    cases moved with
    | ok done => exact ih _
    | error fault =>
      exact (calm_rollBack placed).bind fun _ => (calm_discardAll _).bind fun _ => .pure _

theorem calm_overwrite (dir : Path) (files : List (Path × String)) :
    Calm (overwrite dir files) (overwrite dir files) := by
  refine (Calm.makeDirs dir).bind fun made => ?_
  cases made with
  | error fault => exact .pure _
  | ok done =>
    refine (calm_stageAll dir files).bind fun staging => ?_
    cases staging.result with
    | error fault => exact .pure _
    | ok moves => exact (calm_placeAll [] moves).bind fun _ => .pure _

theorem calm_write (artifact : Artifact) (dir : Path) (force : Bool) :
    Calm (write artifact dir force) (write artifact dir force) := by
  refine (calm_presentOf _).bind fun existing => ?_
  dsimp only
  split
  · exact .pure _
  · exact (calm_overwrite dir _).bind fun _ => .pure _

theorem outcomeFrom_write_calm (tree : FileTree) (artifact : Artifact) (dir : Path) (force : Bool) :
    outcomeFrom ⟨tree, []⟩ (write artifact dir force) =
      ((runFrom tree (write artifact dir force)).1.result,
        ⟨(runFrom tree (write artifact dir force)).2, []⟩) := by
  rw [outcomeFrom, calm_write artifact dir force tree]

/-! ## Files that are lost -/

/-- Every file of one tree is in the other, with the same contents. -/
def KeepsFiles (before after : FileTree) : Prop :=
  ∀ address bytes, before.get? address = some (.file bytes) →
    after.get? address = some (.file bytes)

theorem KeepsFiles.refl (tree : FileTree) : KeepsFiles tree tree := fun _ _ held => held

theorem KeepsFiles.trans {before middle after : FileTree} (first : KeepsFiles before middle)
    (second : KeepsFiles middle after) : KeepsFiles before after :=
  fun address bytes held => second address bytes (first address bytes held)

theorem keepsFiles_of_grown {dir : Path} {before after : FileTree}
    (grown : FileTree.Grown dir before after) : KeepsFiles before after := by
  intro address bytes file
  rcases grown address with same | made
  · rw [same, file]
  · cases file.symm.trans made.absent

variable {artifact : Artifact} {dir : Path} {force : Bool} {machine middle : Machine}
  {place : Address} {after : FileTree} {fault : Files.Fault}

/-- `TakenBack artifact dir machine middle place after`: the source file was moved into place and
the table of symbols was not, and then the source file was removed. Here `middle` is the machine
after the output directory was made, and `place` is the address of this directory. -/
structure TakenBack (artifact : Artifact) (dir : Path) (machine middle : Machine) (place : Address)
    (after : FileTree) : Prop where
  made : runFrom machine (FileSystem.makeDirs dir) = (.ok (), middle)
  located : middle.tree.locateDir dir = .ok place
  staged : ∃ moves, (outcomeFrom middle (stageAll dir (targets artifact dir))).1 = .ok moves
  moved : ¬ Blocked middle.tree place artifact.sourceFile
  stuck : machine.ahead = [] → Blocked middle.tree place artifact.symbolFile
  left : ∀ address, after.get? address =
    if address = place ++ [artifact.sourceFile] then none else middle.tree.get? address

/-- A failed call has either made directories and nothing else or taken back the source file. -/
theorem grown_or_takenBack
    (overwritten : Overwriting dir artifact.files machine (.error fault) after) :
    FileTree.Grown dir machine.tree after ∨
      ∃ middle place, TakenBack artifact dir machine middle place after := by
  cases overwritten with
  | unmade refused => exact .inl (grown_of_makeDirs refused)
  | unstaged made refused same =>
    exact .inl ((grown_of_makeDirs made).trans fun address => .inl (same address))
  | @withdrawn middle ready place moves _ _ done rest failed made located staged split free calm
      same =>
    rcases done with _ | ⟨first, _ | ⟨second, more⟩⟩
    · exact .inl ((grown_of_makeDirs made).trans fun address => .inl (same address))
    · obtain ⟨rfl, rfl, rfl⟩ : (artifact.sourceFile, artifact.source) = first ∧
          (artifact.symbolFile, artifact.symbols) = failed ∧ [] = rest := by
        simpa [Artifact.files] using split
      refine .inr ⟨middle, place, made, located, ⟨moves, congrArg Prod.fst staged⟩,
        free _ List.mem_cons_self, calm, fun address => ?_⟩
      rw [same, List.map_singleton]
      simp only [List.mem_singleton]
    · simp [Artifact.files] at split

/-- A failed call either leaves every file alone or has taken back the source file. -/
theorem keepsFiles_or_takenBack
    (overwritten : Overwriting dir artifact.files machine (.error fault) after) :
    KeepsFiles machine.tree after ∨
      ∃ middle place, TakenBack artifact dir machine middle place after :=
  (grown_or_takenBack overwritten).imp_left keepsFiles_of_grown

theorem TakenBack.kept (back : TakenBack artifact dir machine middle place after)
    {address : Address} {bytes : ByteArray} (file : machine.tree.get? address = some (.file bytes))
    (other : address ≠ place ++ [artifact.sourceFile]) :
    after.get? address = some (.file bytes) := by
  rw [back.left, if_neg other]
  exact keepsFiles_of_grown (grown_of_makeDirs back.made) address bytes file

theorem TakenBack.keepsDirectories (back : TakenBack artifact dir machine middle place after) :
    FileTree.KeepsDirectories middle.tree after := by
  have free : middle.tree.get? (place ++ [artifact.sourceFile]) ≠ some .directory :=
    fun directory => back.moved (.inr directory)
  refine .of_others (List.forall_mem_singleton.mpr free) fun address outside => ?_
  rw [back.left, if_neg (mt List.mem_singleton.mpr outside)]

theorem TakenBack.located_after (back : TakenBack artifact dir machine middle place after) :
    after.locateDir dir = .ok place :=
  FileTree.locateDir_mono back.keepsDirectories back.located

/-- Where no file was replaced, taking back the source file leaves new directories and nothing
else. -/
theorem TakenBack.grown (back : TakenBack artifact dir machine middle place after)
    (new : ∀ bytes, machine.tree.get? (place ++ [artifact.sourceFile]) ≠ some (.file bytes)) :
    FileTree.Grown dir machine.tree after := by
  have made := grown_of_makeDirs back.made
  intro address
  by_cases source : address = place ++ [artifact.sourceFile]
  · subst source
    have left := back.left (place ++ [artifact.sourceFile])
    rw [if_pos rfl] at left
    refine .inl (left.trans ?_)
    cases held : machine.tree.get? (place ++ [artifact.sourceFile]) with
    | none => rfl
    | some node =>
      cases node with
      | file bytes => exact absurd held (new bytes)
      | directory => exact absurd (.inr (made.keepsDirectories _ held)) back.moved
  · refine grown_or_made made back.keepsDirectories ?_
    rw [back.left, if_neg source]

/-- A call that fails has not been skipped. -/
theorem begun_of_failed
    (failed : (outcomeFrom machine (write artifact dir force)).1 = .error fault) :
    force = false → existing artifact dir machine.tree = [] := by
  rintro rfl
  by_contra there
  rw [outcomeFrom_write_kept there] at failed
  cases failed

theorem overwriting_of_failed {layout : Layout} {m : ModuleDecl}
    (generated : Artifact.generateWith layout m = .ok artifact)
    (failed : (outcomeFrom machine (write artifact dir force)).1 = .error fault) :
    Overwriting dir artifact.files machine (.error fault)
      (outcomeFrom machine (write artifact dir force)).2.tree := by
  obtain ⟨result, later, equal, overwritten⟩ :=
    write_begun generated machine (begun_of_failed failed)
  rw [equal] at failed ⊢
  cases result with
  | error other =>
    cases failed
    exact overwritten
  | ok paths => cases failed

/-- Whatever is interrupted, the source file is the only older file that a failed call may lose. -/
theorem kept_of_failed {layout : Layout} {m : ModuleDecl}
    (generated : Artifact.generateWith layout m = .ok artifact)
    (failed : (outcomeFrom machine (write artifact dir force)).1 = .error fault) :
    KeepsFiles machine.tree (outcomeFrom machine (write artifact dir force)).2.tree ∨
      ∃ place,
        (outcomeFrom machine (write artifact dir force)).2.tree.locateDir dir = .ok place ∧
        ∀ address bytes, address ≠ place ++ [artifact.sourceFile] →
          machine.tree.get? address = some (.file bytes) →
          (outcomeFrom machine (write artifact dir force)).2.tree.get? address =
            some (.file bytes) := by
  rcases keepsFiles_or_takenBack (overwriting_of_failed generated failed) with
    kept | ⟨middle, place, back⟩
  · exact .inl kept
  · exact .inr ⟨place, back.located_after, fun address bytes other file => back.kept file other⟩

/-- In a directory that a path leads to, nothing stands in the place of a file that was looked for
in vain. -/
theorem get?_of_not_existing {layout : Layout} {m : ModuleDecl} {tree middle : FileTree}
    (generated : Artifact.generateWith layout m = .ok artifact)
    (vain : existing artifact dir tree = []) (located : tree.locateDir dir = .ok place)
    {file : String × String} (member : file ∈ artifact.files)
    (free : ¬ Blocked middle place file.1) : tree.get? (place ++ [file.1]) = none := by
  have short : IsShortName file.1 :=
    ⟨(Artifact.deliverable_files generated).entering file member,
      Nat.le_of_not_lt (not_or.mp free).1⟩
  have absent := List.filter_eq_nil_iff.mp vain _ (List.mem_map_of_mem member)
  simpa [FileTree.present_short located short] using absent

/-- A call without force that fails keeps every older file, where the path of the output directory
led to one before. -/
theorem keepsFiles_of_unforced {layout : Layout} {m : ModuleDecl}
    (generated : Artifact.generateWith layout m = .ok artifact)
    (located : machine.tree.locateDir dir = .ok place)
    (failed : (outcomeFrom machine (write artifact dir false)).1 = .error fault) :
    KeepsFiles machine.tree (outcomeFrom machine (write artifact dir false)).2.tree := by
  rcases keepsFiles_or_takenBack (overwriting_of_failed generated failed) with
    kept | ⟨middle, other, back⟩
  · exact kept
  · have stays := FileTree.locateDir_mono (grown_of_makeDirs back.made).keepsDirectories located
    cases stays.symm.trans back.located
    -- The call was not skipped, so nothing was in the place of the source.
    have absent := get?_of_not_existing generated (begun_of_failed failed rfl) located
      List.mem_cons_self back.moved
    intro address bytes file
    refine back.kept file ?_
    rintro rfl
    cases file.symm.trans absent

/-! ## On a tree -/

/-- `Replaced artifact dir force tree middle place`: a call on a tree replaces an older source file
and then cannot move the table of symbols. Here `middle` is the tree after the output directory was
made, and `place` is the address of this directory. -/
structure Replaced (artifact : Artifact) (dir : Path) (force : Bool) (tree middle : FileTree)
    (place : Address) : Prop where
  begun : force = false → existing artifact dir tree = []
  made : tree.makeDirs dir = (middle, .ok ())
  located : middle.locateDir dir = .ok place
  staged : ∃ moves, (runFrom middle (stageAll dir (targets artifact dir))).1.result = .ok moves
  older : ∃ bytes, tree.get? (place ++ [artifact.sourceFile]) = some (.file bytes)
  moved : ¬ Blocked middle place artifact.sourceFile
  stuck : Blocked middle place artifact.symbolFile

variable {tree : FileTree}

theorem outcomeFrom_stageAll_calm (tree : FileTree) (dir : Path) (files : List (Path × String)) :
    (outcomeFrom ⟨tree, []⟩ (stageAll dir files)).1 =
      (runFrom tree (stageAll dir files)).1.result := by
  rw [outcomeFrom, calm_stageAll dir files tree]

theorem runFrom_makeDirs_calm (tree : FileTree) (dir : Path) :
    runFrom ⟨tree, []⟩ (FileSystem.makeDirs (m := StateM Machine) dir) =
      ((tree.makeDirs dir).2, ⟨(tree.makeDirs dir).1, []⟩) := rfl

/-- What was not kept was the source file that was replaced. -/
theorem TakenBack.replaced (back : TakenBack artifact dir ⟨tree, []⟩ middle place after)
    (begun : force = false → existing artifact dir tree = []) (lost : ¬ KeepsFiles tree after) :
    Replaced artifact dir force tree middle.tree place := by
  have made := back.made
  rw [runFrom_makeDirs_calm] at made
  obtain ⟨result, rfl⟩ := Prod.mk.inj made
  obtain ⟨moves, staged⟩ := back.staged
  rw [outcomeFrom_stageAll_calm] at staged
  refine ⟨begun, Prod.ext rfl result, back.located, ⟨moves, staged⟩, ?_, back.moved, back.stuck rfl⟩
  by_contra none
  refine lost fun address bytes file => back.kept file ?_
  rintro rfl
  exact none ⟨bytes, file⟩

/-- Once the output directory is made and the texts are staged, either all files are put in place, or
those before one that is blocked are removed again. -/
theorem placing_of_overwriting {middle : FileTree} {files : List (String × String)}
    {result : Except Files.Fault (List Path)}
    (overwritten : Overwriting dir files ⟨tree, []⟩ result after)
    (made : tree.makeDirs dir = (middle, .ok ())) (located : middle.locateDir dir = .ok place)
    (staged : ∃ moves,
      (runFrom middle (stageAll dir (targetsIn dir files))).1.result = .ok moves) :
    ((∀ file ∈ files, ¬ Blocked middle place file.1) ∧
      ∀ file ∈ files, after.get? (place ++ [file.1]) = some (.file file.2.toUTF8)) ∨
    ∃ fault done failed rest, result = .error fault ∧ files = done ++ failed :: rest ∧
      Blocked middle place failed.1 ∧
      ∀ address, after.get? address =
        if address ∈ done.map (place ++ [·.1]) then none else middle.get? address := by
  have making := runFrom_makeDirs_calm tree dir
  rw [made] at making
  obtain ⟨moves, staged⟩ := staged
  rw [← outcomeFrom_stageAll_calm] at staged
  cases overwritten with
  | unmade refused => cases making.symm.trans refused
  | unstaged making' refused same =>
    cases making.symm.trans making'
    cases staged.symm.trans (congrArg Prod.fst refused)
  | written making' located' free stored others =>
    cases making.symm.trans making'
    cases located.symm.trans located'
    exact .inl ⟨free, stored⟩
  | withdrawn making' located' _ split _ calm same =>
    cases making.symm.trans making'
    cases located.symm.trans located'
    exact .inr ⟨_, _, _, _, rfl, split, calm rfl, same⟩

/-- Where an older source file is replaced and the table of symbols cannot be moved, the call fails
and nothing is left at the place of the source file. -/
theorem Replaced.takenBack {middle : FileTree} {result : Except Files.Fault (List Path)}
    (replaced : Replaced artifact dir force tree middle place)
    (overwritten : Overwriting dir artifact.files ⟨tree, []⟩ result after) :
    ∃ fault, result = .error fault ∧ after.get? (place ++ [artifact.sourceFile]) = none := by
  rcases placing_of_overwriting overwritten replaced.made replaced.located replaced.staged with
    ⟨free, -⟩ | ⟨fault, done, failed, rest, failing, split, blocked, same⟩
  · have last : (artifact.symbolFile, artifact.symbols) ∈ artifact.files := by simp [Artifact.files]
    exact absurd replaced.stuck (free _ last)
  · refine ⟨fault, failing, ?_⟩
    rw [same, if_pos]
    rcases done with _ | ⟨first, more⟩
    · obtain ⟨rfl, -⟩ : (artifact.sourceFile, artifact.source) = failed ∧ _ = rest := by
        simpa [Artifact.files] using split
      exact absurd blocked replaced.moved
    · obtain ⟨rfl, -⟩ : (artifact.sourceFile, artifact.source) = first ∧
          _ = more ++ failed :: rest := by
        simpa [Artifact.files] using split
      exact List.mem_cons_self

end BindingGen.Store
