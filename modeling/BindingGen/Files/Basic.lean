import BindingGen.Files.Fault
import BindingGen.Files.Path

/-!
What the generator asks of a file system. Files are written by staging: the text goes into a new
file with a name of its own, which is then moved into place.
-/

namespace BindingGen.Files

/-- The operations of a file system on which the generator works. -/
class FileSystem (m : Type → Type) where
  /-- The text of a file. -/
  readText : Path → m (Except ReadFault String)
  /-- Whether anything is there. -/
  present : Path → m Bool
  /-- Makes a directory and those it lies in, as far as they are missing. -/
  makeDirs : Path → m (Except Fault Unit)
  /-- Writes a text into a new file of a directory and returns its path. -/
  stage : Path → String → m (Except Fault Path)
  /-- Moves a file to a path, in place of a file that is there. -/
  move : Path → Path → m (Except Fault Unit)
  /-- Removes a file. -/
  remove : Path → m (Except Fault Unit)

end BindingGen.Files
