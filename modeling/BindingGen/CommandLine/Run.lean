import BindingGen.CommandLine.Request
import BindingGen.Loading
import BindingGen.Store

/-!
Runs: from a command line to what is printed, the exit code, and the files that are written. Nothing
is written by a dry run or by a run that fails before storing.
-/

namespace BindingGen.CommandLine

open Files (FileSystem Path)

/-- What a run leaves besides files. -/
structure RunResult where
  exit : Nat
  out : String
  err : String
  notes : List Note
  deriving DecidableEq, Repr

/-- The version of the program. -/
def version : String := "0.1.0"

/-- The summary of the command line. -/
def usage : String :=
  "Usage: mpgen [-f] [-v] [-i PATH] [-o DIR] [--dry-run] [MODULE]\n"

/-- A run that fails with a message, after what it was about to do. -/
def failure (notes : List Note) (context : String) (fault : Fault) : RunResult :=
  ⟨1, "", "error: " ++ context ++ ": " ++ fault.message ++ "\n", notes⟩

/-- Both artifacts of a module, each under its file's name. -/
def dryText (artifact : Artifact) : String :=
  let banner (file : String) : String := "// ===== " ++ file ++ " =====\n"
  banner artifact.sourceFile ++ artifact.source ++ banner artifact.symbolFile ++ artifact.symbols

/-- What a run that stored its artifacts, or found them there, prints. -/
def storedResult (notes : List Note) (artifact : Artifact) : Store.Outcome → RunResult
  | .written paths =>
    ⟨0, "Generated " ++ artifact.sourceFile ++ " and " ++ artifact.symbolFile ++ "\n", "",
      notes ++ paths.map fun path => ⟨.info, "Wrote " ++ path.text⟩⟩
  | .skipped existing =>
    ⟨0, "", String.join (existing.map fun path => path.text ++ " already exists\n") ++
      "Nothing written; use --force to overwrite\n", notes⟩

variable {m : Type → Type} [Monad m] [FileSystem m]

/-- Stores an artifact as the options say. -/
def store (options : Options) (notes : List Note) (artifact : Artifact) : m RunResult := do
  let dir := Path.ofText options.outputDir
  let report ← Store.write artifact dir options.force
  match report.result with
  | .error fault =>
    pure (failure (notes ++ report.notes) ("Failed to write into " ++ dir.text) (.file fault))
  | .ok outcome => pure (storedResult (notes ++ report.notes) artifact outcome)

/-- Loads a descriptor, generates its artifacts and stores or prints them. -/
def generate (options : Options) : m RunResult := do
  let input := Path.ofText (options.input.getD (options.module ++ ".json"))
  let (notes, loaded) ← ModuleDecl.load options.module input
  match loaded with
  | .error fault => pure (failure notes ("Failed to load " ++ input.text) fault)
  | .ok decl =>
    let notes := notes ++ Artifact.notes decl
    match Artifact.generate decl with
    | .error fault =>
      pure (failure notes ("Failed to generate bindings for " ++ inQuotes options.module) fault)
    | .ok artifact =>
      if options.dryRun then pure ⟨0, dryText artifact, "", notes⟩
      else store options notes artifact

/-- A run of the program. -/
def run (arguments : List String) : m RunResult :=
  match parse arguments with
  | .error fault => pure ⟨2, "", "error: " ++ fault.message ++ "\n\n" ++ usage, []⟩
  | .ok .version => pure ⟨0, "mpgen " ++ version ++ "\n", "", []⟩
  | .ok .help => pure ⟨0, usage, "", []⟩
  | .ok (.generate options) => generate options

end BindingGen.CommandLine
