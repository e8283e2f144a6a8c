import BindingGen.CommandLine.Run
import BindingGen.Files.Disk

/-!
The program: a run on the files of the machine. Warnings go to the error output, and with the
verbose flag the notes of every level but the finest.
-/

open BindingGen in
/-- A note as a line of the error output. -/
def BindingGen.Note.line (note : Note) : String :=
  match note.level with
  | .warn => "[WARN] " ++ note.text
  | .info => "[INFO] " ++ note.text
  | .debug => "[DEBUG] " ++ note.text
  | .trace => "[TRACE] " ++ note.text

open BindingGen in
/-- How much of its notes a command line wants to see. -/
def BindingGen.CommandLine.shownLevel (arguments : List String) : Level :=
  match CommandLine.parse arguments with
  | .ok (.generate options) => if options.verbose then .debug else .warn
  | _ => .warn

open BindingGen in
def main (arguments : List String) : IO UInt32 := do
  let result ← CommandLine.run (m := IO) arguments
  for note in Note.upTo (CommandLine.shownLevel arguments) result.notes do
    IO.eprintln note.line
  IO.print result.out
  IO.eprint result.err
  return result.exit.toUInt32
