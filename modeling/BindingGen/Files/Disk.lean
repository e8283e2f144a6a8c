import BindingGen.Files.Basic

/-!
The file system of the machine. Refusals are sorted into the causes that the library tells apart;
everything else about files is left to the system.
-/

namespace BindingGen.Files

/-- The cause of a refusal by the system. -/
def faultOf : IO.Error → Fault
  | .noFileOrDirectory .. => .notFound
  | .noSuchThing .. => .notFound
  | .alreadyExists .. => .exists
  | .inappropriateType _ code details => sorted code.toNat details
  | .invalidArgument _ code details => sorted code.toNat details
  | .resourceExhausted _ code details => sorted code.toNat details
  | .illegalOperation code details => sorted code.toNat details
  | .otherError code details => sorted code.toNat details
  | error => .other (toString error)
where
  /-- The cause that goes with a number of the system. -/
  sorted (code : Nat) (details : String) : Fault :=
    if code = 20 then .notDirectory
    else if code = 21 then .isDirectory
    else if code = 36 then .nameTooLong
    else .other (details ++ " (os error " ++ toString code ++ ")")

/-- The result of an action that may be refused. -/
def attempt {α : Type} (action : IO α) : IO (Except Fault α) := do
  match ← action.toBaseIO with
  | .ok value => return .ok value
  | .error error => return .error (faultOf error)

/-- A name in a directory that nothing has, tried from an index on. -/
def freshPath (dir : Path) : Nat → Nat → IO Path
  | 0, index => return dir.join (".tmp" ++ toString index)
  | tries + 1, index => do
    let path := dir.join (".tmp" ++ toString index)
    match ← attempt (IO.FS.Handle.mk path.text .read) with
    | .error .notFound => return path
    | _ => freshPath dir tries (index + 1)

/-- The machine is a file system. -/
instance : FileSystem IO where
  readText path := do
    match ← attempt (IO.FS.readBinFile path.text) with
    | .error fault => return .error (.refused fault)
    | .ok bytes => return (String.fromUTF8? bytes).elim (.error .notText) .ok
  present path := do
    match ← attempt (IO.FS.Handle.mk path.text .read) with
    | .ok _ => return true
    | .error fault => return fault == .isDirectory
  makeDirs path :=
    if path.isEmpty then return .ok () else attempt (IO.FS.createDirAll path.text)
  stage dir text := do
    let path ← freshPath dir 1000 0
    match ← attempt (IO.FS.writeFile path.text text) with
    | .ok () => return .ok path
    | .error fault => return .error fault
  move source target := attempt (IO.FS.rename source.text target.text)
  remove path := attempt (IO.FS.removeFile path.text)

end BindingGen.Files
