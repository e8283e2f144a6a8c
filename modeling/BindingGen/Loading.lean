import BindingGen.Descriptor.Reading
import BindingGen.Descriptor.Validation
import BindingGen.Files.Basic
import BindingGen.Note

/-!
Loading a descriptor: its text is read, must declare the module asked for, and must be valid once
every method is owned by its class.
-/

namespace BindingGen

open Files (FileSystem Path)

namespace ModuleDecl

/-- The module of a name that a JSON text describes. -/
def parse (name : String) (text : String) : Except Fault ModuleDecl :=
  match ofJson text with
  | .error fault => .error (.descriptor name (.malformed fault))
  | .ok m =>
    if m.name = name then m.adopt.validate.map fun () => m.adopt
    else .error (.descriptor name (.otherModule m.name))

/-- What a loaded module tells about itself. -/
def loadedNote (m : ModuleDecl) : Note :=
  ⟨.info, "Loaded " ++ inQuotes m.name ++ ": " ++ toString m.functions.length ++ " functions, " ++
    toString m.classes.length ++ " classes"⟩

/-- What parsing a text tells: nothing, where it fails. -/
def parseNotes (name : String) (text : String) : List Note :=
  match parse name text with
  | .ok m => [m.loadedNote]
  | .error _ => []

/-- Loads the module of a name from a file. -/
def load {μ : Type → Type} [Monad μ] [FileSystem μ] (name : String) (path : Path) :
    μ (List Note × Except Fault ModuleDecl) := do
  let reading : Note :=
    ⟨.debug, "Reading descriptor for " ++ inQuotes name ++ " from " ++ path.text⟩
  match ← FileSystem.readText path with
  | .error fault => pure ([reading], .error (.descriptor name (.unreadable path.text fault)))
  | .ok text => pure (reading :: parseNotes name text, parse name text)

end ModuleDecl

end BindingGen
