/-!
Notes: what a run tells about itself while it works. A reader chooses how much of it to see by a
level; less severe notes are left out.
-/

namespace BindingGen

/-- How severe a note is. -/
inductive Level where
  | warn
  | info
  | debug
  | trace
  deriving DecidableEq, Repr

/-- The rank of a level; the most severe one is first. -/
def Level.rank : Level → Nat
  | .warn => 0
  | .info => 1
  | .debug => 2
  | .trace => 3

/-- A note at its level. -/
structure Note where
  level : Level
  text : String
  deriving DecidableEq, Repr

/-- The notes at a level or more severe. -/
def Note.upTo (level : Level) (notes : List Note) : List Note :=
  notes.filter fun note => note.level.rank ≤ level.rank

/-- The notes of steps that are tried in order until one fails; the notes of that one are the
last. -/
def Note.untilFailure {α ε β : Type} (step : α → Except ε β) (notes : α → List Note) :
    List α → List Note
  | [] => []
  | a :: rest =>
    match step a with
    | .ok _ => notes a ++ untilFailure step notes rest
    | .error _ => notes a

end BindingGen
