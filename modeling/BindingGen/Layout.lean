import BindingGen.Fragment.Text

/-!
Layouts turn fragments into a source text. They decide on indentation and on blank lines, and on
nothing else.
-/

namespace BindingGen

/-- How fragments are laid out. -/
inductive Layout where
  /-- Every line on its depth, with so many blanks for each step; empty lines stay empty. -/
  | indented (width : Nat)
  /-- Every fragment as it stands by itself, without blank fragments. -/
  | dense
  deriving DecidableEq, Repr

namespace Layout

/-- The usual layout. -/
def standard : Layout := indented 4

/-- A line with its indentation and its end. -/
def indentedLine (width depth : Nat) (line : String) : String :=
  if line.isEmpty then "\n" else Fragment.spaces (depth * width) ++ line ++ "\n"

/-- The text of one fragment; every line of it ends with a line feed. -/
def format (layout : Layout) (fragment : Fragment) : String :=
  match layout with
  | indented width =>
    String.join (fragment.lines.map fun line =>
      indentedLine width (fragment.depth + line.depth) line.text)
  | dense =>
    match fragment with
    | .blank => ""
    | _ => fragment.text ++ "\n"

/-- The text of a sequence of fragments. -/
def render (layout : Layout) (fragments : List Fragment) : String :=
  String.join (fragments.map layout.format)

/-- Fragments are laid out one after the other. -/
@[simp] theorem render_append (layout : Layout) (a b : List Fragment) :
    layout.render (a ++ b) = layout.render a ++ layout.render b := by
  simp [render]

end Layout

end BindingGen
