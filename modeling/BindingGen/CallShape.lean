import BindingGen.Descriptor.Basic
import BindingGen.Fault
import BindingGen.Note

/-!
Call shapes: the native calling conventions, and the one that fits a signature. Up to three required
arguments are passed one by one, a bounded number as an array, an open number as an array without
a table, and named arguments as an array with a map. The receiver of a constructor is supplied by
the runtime and not counted.
-/

namespace BindingGen

/-- A native calling convention. -/
inductive CallShape where
  /-- So many arguments, each passed by itself. -/
  | fixed (count : Nat)
  /-- From `min` to `max` arguments in an array. -/
  | between (min max : Nat)
  /-- At least `min` arguments in an array. -/
  | atLeast (min : Nat)
  /-- At least `min` arguments in an array, and named ones in a map. -/
  | keyword (min : Nat)
  deriving DecidableEq, Repr

namespace CallShape

/-- The most arguments that are passed one by one. -/
def mostFixed : Nat := 3

/-- The least number of positional arguments. -/
def min : CallShape → Nat
  | fixed count => count
  | between least _ => least
  | atLeast least => least
  | keyword least => least

/-- The greatest number of positional arguments; none where it is open. -/
def max : CallShape → Option Nat
  | fixed count => some count
  | between _ most => some most
  | atLeast _ => none
  | keyword _ => none

/-- Whether the convention passes named arguments. -/
def takesKeywords : CallShape → Bool
  | keyword _ => true
  | _ => false

/-- Whether arguments are checked against a table. -/
def hasArgTable : CallShape → Bool
  | between _ _ => true
  | keyword _ => true
  | _ => false

/-- The number less one, if there is such a number. -/
def pred? : Nat → Option Nat
  | 0 => none
  | n + 1 => some n

/-- The shape with one argument less in every bound; none where a bound is zero. -/
def withoutReceiver : CallShape → Option CallShape
  | fixed count => (pred? count).map fixed
  | between least most => do return between (← pred? least) (← pred? most)
  | atLeast least => (pred? least).map atLeast
  | keyword least => (pred? least).map keyword

/-- The text of a shape. -/
def text : CallShape → String
  | fixed count => "Fixed(" ++ toString count ++ ")"
  | between least most => "VarBetween(" ++ toString least ++ ", " ++ toString most ++ ")"
  | atLeast least => "VarArgs(" ++ toString least ++ ")"
  | keyword least => "Keyword(" ++ toString least ++ ")"

end CallShape

namespace FunctionDecl

/-- The shape of a signature with every declared parameter counted. -/
def fullShape (f : FunctionDecl) : Except ShapeFault CallShape :=
  let count := f.positional.length
  let least := f.required.length
  if f.varargs && f.varkw && f.hasDefaults then .error .extrasWithDefaults
  else if f.varkw || f.hasKeywordOnly then .ok (.keyword least)
  else if f.varargs then .ok (.atLeast least)
  else if f.defaulted.isEmpty && count ≤ CallShape.mostFixed then .ok (.fixed count)
  else .ok (.between least count)

/-- The shape of a function: that of its signature, less the receiver for a constructor. -/
def callShape (f : FunctionDecl) : Except Fault CallShape :=
  let shape := do
    let full ← f.fullShape
    if f.isConstructor then
      match full.withoutReceiver with
      | some shape => return shape
      | none => throw ShapeFault.noReceiver
    else return full
  shape.mapError (.unsupportedShape f.qualifiedName)

/-- The spelling of a truth value. -/
def flagText (b : Bool) : String := if b then "true" else "false"

/-- What deriving a shape tells: the counts it is derived from. -/
def shapeNote (f : FunctionDecl) : Note :=
  ⟨.trace, "classify " ++ inQuotes f.qualifiedName ++
    ": positional=" ++ toString f.positional.length ++
    ", defaulted=" ++ toString f.defaulted.length ++
    ", varargs=" ++ flagText f.varargs ++
    ", varkw=" ++ flagText f.varkw ++
    ", kw_only=" ++ flagText f.hasKeywordOnly⟩

end FunctionDecl

end BindingGen
