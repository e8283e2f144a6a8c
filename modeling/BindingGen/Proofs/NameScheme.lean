import BindingGen.NameScheme
import BindingGen.Proofs.Text.Identifier

/-!
# Names behind the stem of a module

All names at file scope are the stem of the module, an underscore and a rest. The rest of an entry
point is the name of its function, joined to that of the owner if there is one; the rests of the
other names have fixed endings. A name is told by its rest, and it is an identifier where the rest
is made of word characters.
-/

namespace BindingGen

open Text (isIdentifier allWord allWord_append allWord_of_isIdentifier isIdentifier_append)

/-- The name of a function with its owner's before it. -/
def FunctionDecl.joinedName (f : FunctionDecl) : String :=
  match f.owner with
  | some owner => owner ++ "_" ++ f.name
  | none => f.name

namespace NameScheme

variable {names : NameScheme}

/-- A name behind the stem of a module. -/
def joined (names : NameScheme) (rest : String) : String := names.stem ++ "_" ++ rest

theorem joined_injective : Function.Injective names.joined :=
  fun _ _ same => (String.append_right_inj _).mp same

theorem joined_append (a b : String) : names.joined (a ++ b) = names.joined a ++ b :=
  String.append_assoc.symm

theorem joined_entry (f : FunctionDecl) : names.joined f.joinedName = names.entry f := by
  unfold entry joined FunctionDecl.joinedName
  cases f.owner with
  | none => rfl
  | some owner => simp only [String.append_assoc]

/-! ## Identifiers -/

theorem isIdentifier_joined (stem : isIdentifier names.stem = true) (rest : String) :
    isIdentifier (names.joined rest) = allWord rest := by
  have underscore : allWord "_" = true := by decide
  rw [joined, String.append_assoc, isIdentifier_append stem, allWord_append, underscore,
    Bool.true_and]

/-- What belongs to a class is named like the class, with an ending. -/
theorem isIdentifier_ofClass (stem : isIdentifier names.stem = true) {c : String}
    (named : isIdentifier c = true) {ending : String} (words : allWord ending = true) :
    isIdentifier (names.stem ++ "_" ++ c ++ ending) = true := by
  have ofClass : isIdentifier (names.joined c) = true :=
    (isIdentifier_joined stem c).trans (allWord_of_isIdentifier named)
  exact (isIdentifier_append ofClass).trans words

theorem isIdentifier_entry_iff (stem : isIdentifier names.stem = true) {f : FunctionDecl}
    (named : isIdentifier f.name = true) :
    isIdentifier (names.entry f) = true ↔
      ∀ owner, f.owner = some owner → allWord owner = true := by
  have words := allWord_of_isIdentifier named
  have underscore : allWord "_" = true := by decide
  rw [← joined_entry, isIdentifier_joined stem]
  unfold FunctionDecl.joinedName
  cases f.owner with
  | none => exact iff_of_true words nofun
  | some owner =>
    show allWord (owner ++ "_" ++ f.name) = true ↔ _
    rw [allWord_append, allWord_append, words, underscore, Bool.and_true, Bool.and_true]
    constructor
    · rintro fits _ ⟨⟩
      exact fits
    · exact fun fits => fits owner rfl

theorem isIdentifier_functionObject {f : FunctionDecl}
    (entry : isIdentifier (names.entry f) = true) :
    isIdentifier (names.functionObject f) = true := by
  rw [functionObject, isIdentifier_append entry]
  decide

theorem isIdentifier_localParam {param : String} (named : isIdentifier param = true) :
    isIdentifier (localParam param) = true := by
  rw [localParam, isIdentifier_append named]
  decide

theorem isIdentifier_argSlot {param : String} (named : isIdentifier param = true) :
    isIdentifier (argSlot param) = true := by
  rw [argSlot, isIdentifier_append (by decide)]
  exact allWord_of_isIdentifier named

theorem isIdentifier_guard (stem : isIdentifier names.stem = true) :
    isIdentifier names.guard = true := by
  rw [guard, String.append_assoc, isIdentifier_append (by decide), allWord_append,
    Text.allWord_upper (allWord_of_isIdentifier stem)]
  decide

end NameScheme

end BindingGen
