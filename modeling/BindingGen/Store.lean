import BindingGen.Artifact
import BindingGen.Files.Basic

/-!
Storing the artifacts of a module. Files that are there are kept unless they may be overwritten. All
texts are staged before the first is moved into place, and when a move fails, what has been moved is
removed again.
-/

namespace BindingGen

open Files (FileSystem Path)

namespace Store

/-- What storing comes to. -/
inductive Outcome where
  /-- Every file was written, in this order. -/
  | written (paths : List Path)
  /-- Nothing was written, for these files are there. -/
  | skipped (existing : List Path)
  deriving DecidableEq, Repr

/-- A result with what was told on the way to it. -/
structure Report (α : Type) where
  notes : List Note
  result : α

variable {m : Type → Type} [Monad m] [FileSystem m]

/-- Removes files, whether or not they are there. -/
def discardAll : List Path → m Unit
  | [] => pure ()
  | path :: rest => do
    let _ ← FileSystem.remove (m := m) path
    discardAll rest

/-- Removes files that were moved into place; what cannot be removed is reported. -/
def rollBack : List Path → m (List Note)
  | [] => pure []
  | path :: rest => do
    let removed ← FileSystem.remove (m := m) path
    let later ← rollBack rest
    let failure : List Note :=
      match removed with
      | .ok () => []
      | .error fault => [⟨.warn, "Could not remove " ++ path.text ++ ": " ++ fault.message⟩]
    pure (⟨.debug, "Removing " ++ path.text⟩ :: (failure ++ later))

/-- Stages the text of every target. When one cannot be staged, the others are removed again. -/
def stageAll (dir : Path) :
    List (Path × String) → m (Report (Except Files.Fault (List (Path × Path))))
  | [] => pure ⟨[], .ok []⟩
  | (target, text) :: rest => do
    let note : Note := ⟨.debug,
      "Staging " ++ target.text ++ " (" ++ toString text.utf8ByteSize ++ " bytes)"⟩
    match ← FileSystem.stage dir text with
    | .error fault => pure ⟨[note], .error fault⟩
    | .ok staged =>
      let later ← stageAll dir rest
      match later.result with
      | .ok moves => pure ⟨note :: later.notes, .ok ((target, staged) :: moves)⟩
      | .error fault => do
        discardAll [staged]
        pure ⟨note :: later.notes, .error fault⟩

/-- Moves staged files into place. When a move fails, the files that were moved and those still
staged are removed. -/
def placeAll (placed : List Path) :
    List (Path × Path) → m (Report (Except Files.Fault (List Path)))
  | [] => pure ⟨[], .ok placed⟩
  | (target, staged) :: rest => do
    match ← FileSystem.move staged target with
    | .ok () => placeAll (placed ++ [target]) rest
    | .error fault => do
      let notes ← rollBack placed
      discardAll (staged :: rest.map Prod.snd)
      pure ⟨notes, .error fault⟩

/-- The targets of an artifact with their texts. -/
def targets (artifact : Artifact) (dir : Path) : List (Path × String) :=
  [(dir.join artifact.sourceFile, artifact.source), (dir.join artifact.symbolFile, artifact.symbols)]

/-- Those of some paths at which anything is. -/
def presentOf : List Path → m (List Path)
  | [] => pure []
  | path :: rest => do
    let here ← FileSystem.present path
    let later ← presentOf rest
    pure (if here then path :: later else later)

/-- Writes targets into a directory that is made if it is missing. -/
def overwrite (dir : Path) (files : List (Path × String)) :
    m (Report (Except Files.Fault (List Path))) := do
  match ← FileSystem.makeDirs dir with
  | .error fault => pure ⟨[], .error fault⟩
  | .ok () =>
    let staging ← stageAll dir files
    match staging.result with
    | .error fault => pure ⟨staging.notes, .error fault⟩
    | .ok moves =>
      let placing ← placeAll [] moves
      pure ⟨staging.notes ++ placing.notes, placing.result⟩

/-- Stores an artifact in a directory. -/
def write (artifact : Artifact) (dir : Path) (force : Bool) :
    m (Report (Except Files.Fault Outcome)) := do
  let files := targets artifact dir
  let existing ← presentOf (files.map Prod.fst)
  if !existing.isEmpty && !force then pure ⟨[], .ok (.skipped existing)⟩
  else
    let warning : List Note :=
      if existing.isEmpty then []
      else [⟨.warn, "Overwriting " ++ toString existing.length ++ " existing file(s)"⟩]
    let report ← overwrite dir files
    pure ⟨warning ++ report.notes, report.result.map .written⟩

end Store

end BindingGen
