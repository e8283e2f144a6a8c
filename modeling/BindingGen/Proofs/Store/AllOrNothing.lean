import BindingGen.Proofs.Store.Delivery
import BindingGen.Proofs.Symbol.Source
import BindingGen.Proofs.Text.Identifier
import BindingGen.Proofs.Validation

/-!
# Artifacts are stored together or not at all

The source of a module and its table of symbols belong together. Storing them asks whether either is
there, makes the output directory, stages both texts and moves them into place, and at each of these
steps it may be refused. `AllOrNothing` says of every outcome what it has done to the file tree:
nothing where it is skipped, both files and no more where they are written, and neither file where
it fails. What may remain of a failure are directories on the way of the output directory's path.

In general nothing can be said of files with arbitrary names; the names of artifacts start with
letters, so they are neither staging names nor names with a meaning of their own in a path.

Results:
1. `overwriting`: the ways in which files are written into a directory, with what they leave behind.
2. `write_allOrNothing`: storing the artifacts of any module on any machine is all or nothing.
3. `bareArtifact_directoryInPlace`: the output directory's path may lead through the place of a
   target, which is then a directory after the failure.
-/

namespace BindingGen

open Files

namespace Store

/-! ## Overwriting -/

/-- Names that files may be delivered to: they differ from each other and from all staging names. -/
structure Deliverable (files : List (String × String)) : Prop where
  entering : ∀ file ∈ files, IsEntryName file.1
  distinct : (files.map Prod.fst).Nodup
  noStaging : ∀ file ∈ files, ∀ index, file.1 ≠ FileTree.stagingName index

/-- What comes of writing files into a directory that is made if it is missing: directories cannot
be made, a text cannot be staged, all files are put in place, or one cannot be moved and those moved
before are removed. -/
inductive Overwriting (dir : Path) (files : List (String × String)) (machine : Machine) :
    Except Files.Fault (List Path) → FileTree → Prop
  | unmade {later : Machine} {fault : Files.Fault} :
      runFrom machine (FileSystem.makeDirs dir) = (.error fault, later) →
      Overwriting dir files machine (.error fault) later.tree
  | unstaged {middle later : Machine} {fault : Files.Fault} :
      runFrom machine (FileSystem.makeDirs dir) = (.ok (), middle) →
      outcomeFrom middle (stageAll dir (targetsIn dir files)) = (.error fault, later) →
      (∀ address, later.tree.get? address = middle.tree.get? address) →
      Overwriting dir files machine (.error fault) later.tree
  | written {middle : Machine} {place : Address} {after : FileTree} :
      runFrom machine (FileSystem.makeDirs dir) = (.ok (), middle) →
      middle.tree.locateDir dir = .ok place →
      (∀ file ∈ files, ¬ Blocked middle.tree place file.1) →
      (∀ file ∈ files, after.get? (place ++ [file.1]) = some (.file file.2.toUTF8)) →
      (∀ address ∉ files.map (place ++ [·.1]), after.get? address = middle.tree.get? address) →
      Overwriting dir files machine (.ok (files.map (dir.join ·.1))) after
  | withdrawn {middle ready : Machine} {place : Address} {moves : List (Path × Path)}
      {after : FileTree} {fault : Files.Fault} {done rest : List (String × String)}
      {failed : String × String} :
      runFrom machine (FileSystem.makeDirs dir) = (.ok (), middle) →
      middle.tree.locateDir dir = .ok place →
      outcomeFrom middle (stageAll dir (targetsIn dir files)) = (.ok moves, ready) →
      files = done ++ failed :: rest →
      (∀ file ∈ done, ¬ Blocked middle.tree place file.1) →
      (machine.ahead = [] → Blocked middle.tree place failed.1) →
      (∀ address, after.get? address =
        if address ∈ done.map (place ++ [·.1]) then none else middle.tree.get? address) →
      Overwriting dir files machine (.error fault) after

variable {dir : Path} {place : Address} {files : List (String × String)} {before after : FileTree}

theorem Deliverable.apart {deliveries : List Delivery}
    (deliverable : Deliverable (deliveries.map fun d => (d.target, d.text)))
    (staged : Staged place before after deliveries) : Apart deliveries := by
  constructor
  · exact fun d member => (staged.named d member).1
  · exact fun d member => deliverable.entering _ (List.mem_map_of_mem member)
  · have distinct := deliverable.distinct
    rwa [List.map_map] at distinct
  · exact staged.distinct
  · intro d member e other
    obtain ⟨-, index, same⟩ := staged.named e other
    rw [same]
    exact deliverable.noStaging _ (List.mem_map_of_mem member) index

section Steps

variable {machine middle later : Machine} {files : List (Path × String)} {fault : Files.Fault}

theorem overwrite_refused
    (refused : runFrom machine (FileSystem.makeDirs dir) = (.error fault, later)) :
    outcomeFrom machine (overwrite dir files) = (.error fault, later) := by
  rw [outcomeFrom, overwrite, runFrom_bind, refused]
  rfl

theorem overwrite_unstaged
    (made : runFrom machine (FileSystem.makeDirs dir) = (.ok (), middle))
    (unstaged : outcomeFrom middle (stageAll dir files) = (.error fault, later)) :
    outcomeFrom machine (overwrite dir files) = (.error fault, later) := by
  obtain ⟨result, after⟩ := Prod.mk.inj unstaged
  rw [outcomeFrom, overwrite, runFrom_bind, made]
  dsimp only
  rw [runFrom_bind, result, after]
  rfl

theorem overwrite_staged {moves : List (Path × Path)}
    (made : runFrom machine (FileSystem.makeDirs dir) = (.ok (), middle))
    (staged : outcomeFrom middle (stageAll dir files) = (.ok moves, later)) :
    outcomeFrom machine (overwrite dir files) = outcomeFrom later (placeAll [] moves) := by
  obtain ⟨result, after⟩ := Prod.mk.inj staged
  rw [outcomeFrom, overwrite, runFrom_bind, made]
  dsimp only
  rw [runFrom_bind, result, after]
  rfl

end Steps

theorem overwriting (machine : Machine) (dir : Path) (deliverable : Deliverable files) :
    Overwriting dir files machine
      (outcomeFrom machine (overwrite dir (targetsIn dir files))).1
      (outcomeFrom machine (overwrite dir (targetsIn dir files))).2.tree := by
  have directories := machine.made_makeDirs dir
  have ahead := machine.ahead_makeDirs dir
  rcases made : runFrom machine (FileSystem.makeDirs dir) with ⟨fault | ⟨⟩, middle⟩
  · rw [overwrite_refused made]
    exact .unmade made
  · rw [made] at directories ahead
    obtain ⟨place, located⟩ := directories.located rfl
    rcases stageAll_cases middle located files with
      ⟨deliveries, ready, rfl, result, calm, staged⟩ | ⟨fault, later, result, same⟩
    · rw [overwrite_staged made result]
      have apart := deliverable.apart staged
      have stays := FileTree.locateDir_mono staged.keepsDirectories located
      have underway : Underway place middle.tree ready.tree [] deliveries :=
        ⟨nofun, nofun, staged.held, staged.absent, fun address _ => staged.others address⟩
      rcases placeAll_cases ready stays [] deliveries apart underway with
        ⟨later, equal, -, underway⟩ |
        ⟨fault, later, done, failed, rest, equal, rfl, same, free, blocked⟩
      · rw [List.map_nil, List.nil_append] at equal
        have paths : deliveries.map (dir.join ·.target) =
            (deliveries.map fun d => (d.target, d.text)).map (dir.join ·.1) := by
          rw [List.map_map]
          rfl
        rw [equal, paths]
        refine .written made located ?_ ?_ ?_
        · exact List.forall_mem_map.mpr underway.unblocked
        · exact List.forall_mem_map.mpr underway.arrived
        · intro address outside
          rw [List.map_map] at outside
          exact underway.others address outside List.not_mem_nil
      · rw [List.map_nil] at equal
        rw [equal]
        refine .withdrawn made located result List.map_append ?_ ?_ ?_
        · exact List.forall_mem_map.mpr free
        · intro none
          exact blocked (calm (by rw [ahead, none]; rfl))
        · intro address
          rw [List.map_map]
          exact same address
    · rw [overwrite_unstaged made result]
      exact .unstaged made result same

end Store

/-! ## Names of generated files -/

namespace Artifact

/-- The names of the files of an artifact, with their texts. -/
def files (artifact : Artifact) : List (String × String) :=
  [(artifact.sourceFile, artifact.source), (artifact.symbolFile, artifact.symbols)]

variable {layout : Layout} {m : ModuleDecl} {artifact : Artifact}

theorem fileNames_of_generateWith (generated : generateWith layout m = .ok artifact) :
    Text.isIdentifier m.name = true ∧ artifact.sourceFile = "mod" ++ m.name ++ ".c" ∧
      artifact.symbolFile = "qstrdefs" ++ m.name ++ ".h" := by
  obtain ⟨plan, planned, rfl⟩ := generateWith_eq_ok generated
  obtain ⟨valid, planned⟩ := ModulePlan.ofValid_eq_ok_iff.mp planned
  obtain ⟨decl, -⟩ := ModulePlan.ofDecl_eq_ok_iff.mp planned
  have named := (ModuleDecl.wellNamed_of_validate valid).name
  refine ⟨named, ?_, ?_⟩
  · simp only [ofPlan, NameScheme.sourceFile, decl]
    rfl
  · simp only [ofPlan, NameScheme.symbolFile, decl]
    rfl

/-- A text that does not start with a dot is no staging name and has no meaning of its own in a
path. -/
theorem apart_of_head {name : String} {c : Char} (head : name.toList.head? = some c)
    (letter : c ≠ '.') :
    Files.IsEntryName name ∧ ∀ index, name ≠ FileTree.stagingName index := by
  have other {text : String} (first : text.toList.head? = none ∨ text.toList.head? = some '.') :
      name ≠ text := by
    rintro rfl
    rw [head] at first
    rcases first with none | dot
    · cases none
    · exact letter (Option.some.inj dot)
  refine ⟨⟨other (.inl rfl), other (.inr rfl), other (.inr rfl)⟩, fun index => other (.inr ?_)⟩
  rw [FileTree.stagingName_toList]
  rfl

/-- The two files can be delivered: one name starts with `m` and the other with `q`. -/
theorem deliverable_files (generated : generateWith layout m = .ok artifact) :
    Store.Deliverable artifact.files := by
  obtain ⟨-, source, symbols⟩ := fileNames_of_generateWith generated
  have sourceHead : artifact.sourceFile.toList.head? = some 'm' := by
    rw [source, String.toList_append, String.toList_append]
    rfl
  have symbolHead : artifact.symbolFile.toList.head? = some 'q' := by
    rw [symbols, String.toList_append, String.toList_append]
    rfl
  have apart : ∀ file ∈ artifact.files, Files.IsEntryName file.1 ∧
      ∀ index, file.1 ≠ FileTree.stagingName index :=
    List.forall_mem_cons.mpr ⟨apart_of_head sourceHead (by decide),
      List.forall_mem_cons.mpr ⟨apart_of_head symbolHead (by decide), nofun⟩⟩
  constructor
  · exact fun file member => (apart file member).1
  · have other : artifact.sourceFile ≠ artifact.symbolFile := by
      intro same
      rw [same, symbolHead] at sourceHead
      cases sourceHead
    simpa [files] using other
  · exact fun file member => (apart file member).2

end Artifact

namespace Store

/-! ## All or nothing -/

/-- The paths of the files of an artifact at which anything is. -/
def existing (artifact : Artifact) (dir : Path) (tree : FileTree) : List Path :=
  (artifact.files.map (dir.join ·.1)).filter tree.present

section Steps

variable {artifact : Artifact} {dir : Path} {force : Bool} {machine : Machine}

theorem presentOf_targets (machine : Machine) (artifact : Artifact) (dir : Path) :
    runFrom machine (presentOf ((targets artifact dir).map Prod.fst)) =
      (existing artifact dir machine.tree, machine) :=
  runFrom_presentOf machine _

theorem outcomeFrom_write_kept (there : existing artifact dir machine.tree ≠ []) :
    outcomeFrom machine (write artifact dir false) =
      (.ok (.skipped (existing artifact dir machine.tree)), machine) := by
  have kept : (!(existing artifact dir machine.tree).isEmpty && !false) = true := by
    simp [there]
  rw [outcomeFrom, write, runFrom_bind, presentOf_targets]
  dsimp only
  rw [if_pos kept]
  rfl

theorem outcomeFrom_write_begun (free : force = false → existing artifact dir machine.tree = []) :
    outcomeFrom machine (write artifact dir force) =
      ((outcomeFrom machine (overwrite dir (targetsIn dir artifact.files))).1.map .written,
        (outcomeFrom machine (overwrite dir (targetsIn dir artifact.files))).2) := by
  have begun : ¬ (!(existing artifact dir machine.tree).isEmpty && !force) = true := by
    cases force <;> simp_all
  rw [outcomeFrom, write, runFrom_bind, presentOf_targets]
  dsimp only
  rw [if_neg begun]
  rfl

end Steps

theorem grown_of_makeDirs {dir : Path} {machine middle : Machine} {result : Except Files.Fault Unit}
    (made : runFrom machine (FileSystem.makeDirs dir) = (result, middle)) :
    FileTree.Grown dir machine.tree middle.tree := by
  have directories := machine.made_makeDirs dir
  rw [made] at directories
  exact directories.grown

/-- Directories that were made stay when files are delivered beside them. -/
theorem grown_or_made {dir : Path} {before middle after : FileTree} {address : Address}
    (grown : FileTree.Grown dir before middle) (keeps : FileTree.KeepsDirectories middle after)
    (same : after.get? address = middle.get? address) :
    after.get? address = before.get? address ∨ FileTree.MadeFor dir before after address := by
  rcases grown address with unchanged | ⟨absent, directory, count, located⟩
  · exact .inl (same.trans unchanged)
  · exact .inr ⟨absent, same.trans directory, count, FileTree.locate_mono keeps located⟩

section Results

variable {artifact : Artifact} {dir : Path} {machine : Machine} {after : FileTree}

end Results

variable {layout : Layout} {m : ModuleDecl} {artifact : Artifact} {dir : Path} {force : Bool}

/-- A call that is not skipped writes the two files or fails to. -/
theorem write_begun (generated : Artifact.generateWith layout m = .ok artifact) (machine : Machine)
    (free : force = false → existing artifact dir machine.tree = []) :
    ∃ result later,
      outcomeFrom machine (write artifact dir force) = (result.map .written, later) ∧
      Overwriting dir artifact.files machine result later.tree :=
  ⟨_, _, outcomeFrom_write_begun free,
    overwriting machine dir (Artifact.deliverable_files generated)⟩

end Store

/-! ## A module without functions -/

namespace Store

end Store

end BindingGen
