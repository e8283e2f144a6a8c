/-!
Why a file system refuses an operation, and the texts that say so.
-/

namespace BindingGen.Files

/-- A refusal of the file system. -/
inductive Fault where
  | notFound
  | exists
  | notDirectory
  | isDirectory
  | nameTooLong
  /-- Any other refusal, in its own words. -/
  | other (text : String)
  deriving DecidableEq, Repr

/-- The text of a refusal, with the number the system gives it. -/
def Fault.message : Fault → String
  | .notFound => "No such file or directory (os error 2)"
  | .exists => "File exists (os error 17)"
  | .notDirectory => "Not a directory (os error 20)"
  | .isDirectory => "Is a directory (os error 21)"
  | .nameTooLong => "File name too long (os error 36)"
  | .other text => text

/-- Why a file cannot be read as text. -/
inductive ReadFault where
  | refused (fault : Fault)
  | notText
  deriving DecidableEq, Repr

/-- The text of a failure to read. -/
def ReadFault.message : ReadFault → String
  | .refused fault => fault.message
  | .notText => "stream did not contain valid UTF-8"

end BindingGen.Files
