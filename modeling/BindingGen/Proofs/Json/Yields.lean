import BindingGen.Json.Record
import BindingGen.Proofs.Plan

/-!
# What readers give

A property of all values that a reader gives follows from properties of its parts: of each element
of a list, and of each field that is entered into a record, whether the record is an object or a
list. `Yields` is the property, and there is one lemma for each way of reading.

Results:
1. `yields_optional`, `yields_list`, `yields_unsigned32`: values.
2. `yields_record`: what every field preserves holds of the record that is read.
-/

namespace BindingGen.Json

/-- `Yields reader P`: whatever value the reader gives has the property. -/
def Yields {α : Type} (reader : Reader α) (P : α → Prop) : Prop :=
  ∀ text value rest, reader text = .ok (value, rest) → P value

variable {α β : Type} {reader : Reader α} {P : α → Prop}

theorem Yields.map (yields : Yields reader P) {Q : β → Prop} {f : α → β}
    (carried : ∀ x, P x → Q (f x)) : Yields (reader.map f) Q := by
  intro text value rest read
  rw [Reader.map] at read
  split at read
  · next x _ found =>
    cases read
    exact carried x (yields text x _ found)
  · cases read

theorem yields_optional (yields : Yields reader P) :
    Yields (optional reader) fun found => ∀ x ∈ found, P x := by
  intro text value rest read
  rw [optional] at read
  split at read
  · next after _ =>
    intro x member
    cases ended : word nullTail after with
    | error fault =>
      rw [ended] at read
      cases read
    | ok rest =>
      rw [ended] at read
      cases read
      cases member
  · refine Yields.map (Q := fun found => ∀ x ∈ found, P x) yields ?_ _ value rest read
    rintro y holds x ⟨⟩
    exact holds

theorem yields_unsigned32 (limit : Nat) : Yields (unsigned32 limit) (· < Nat.pow 2 32) := by
  intro text value rest read
  rw [unsigned32] at read
  split at read
  · split at read
    · split at read
      · cases read
      · cases read
      · split at read
        · next inRange =>
          cases read
          omega
        · cases read
    · cases read
  · cases read

/-- The induction is on the bound of the loop; the elements read so far have the property. -/
theorem yields_elements (yields : Yields reader P) (steps : Nat) {before : List α}
    (sofar : ∀ x ∈ before, P x) :
    Yields (elements reader steps before) fun xs => ∀ x ∈ xs, P x := by
  induction steps generalizing before with
  | zero =>
    intro text value rest read
    cases read
  | succ steps ih =>
    intro text values rest read
    rw [elements] at read
    split at read
    · cases read
    · next after _ =>
      cases ended : endOfList after with
      | error fault =>
        rw [ended] at read
        cases read
      | ok rest =>
        rw [ended] at read
        cases read
        intro x member
        exact sofar x (List.mem_reverse.mp member)
    · next after _ =>
      split at read
      · cases read
      · next value after found =>
        exact ih (List.forall_mem_cons.mpr ⟨yields _ _ _ found, sofar⟩) _ _ _ read

theorem yields_list (yields : Yields reader P) (limit : Nat) :
    Yields (list limit reader) fun xs => ∀ x ∈ xs, P x := by
  intro text values rest read
  rw [list] at read
  split at read
  · exact yields_elements yields limit (List.forall_mem_nil _) _ _ _ read
  · cases read

/-! ## Records -/

variable {ρ : Type} {format : RecordFormat ρ} {Q : ρ → Prop}

/-- The fields may come in any order and among unknown ones, which leave the record alone. -/
theorem yields_objectFields
    (entered : ∀ field ∈ format.fields, ∀ record, Q record → Yields (field.2 record) Q)
    {limit : Nat} (steps : Nat) (first : Bool) (given : List String) {record : ρ}
    (holds : Q record) : Yields (objectFields limit format steps first given record) Q := by
  induction steps generalizing first given record with
  | zero =>
    intro text value rest read
    cases read
  | succ steps ih =>
    intro text last rest read
    rw [objectFields] at read
    obtain ⟨⟨more, text⟩, -, read⟩ := bind_eq_ok_iff.mp read
    dsimp only at read
    split at read
    · split at read
      · cases read
        exact holds
      · cases read
    · obtain ⟨⟨name, text⟩, -, read⟩ := bind_eq_ok_iff.mp read
      dsimp only at read
      split at read
      · -- An unknown field is passed over.
        obtain ⟨text, -, read⟩ := bind_eq_ok_iff.mp read
        obtain ⟨text, -, read⟩ := bind_eq_ok_iff.mp read
        exact ih false given holds _ _ _ read
      · next enter known =>
        obtain ⟨before, after, fields, -⟩ := List.lookup_eq_some_iff.mp known
        have member : (name, enter) ∈ format.fields :=
          fields ▸ List.mem_append_right _ List.mem_cons_self
        split at read
        · cases read
        · obtain ⟨text, -, read⟩ := bind_eq_ok_iff.mp read
          obtain ⟨⟨next, text⟩, stepped, read⟩ := bind_eq_ok_iff.mp read
          exact ih false (name :: given) (entered _ member record holds _ _ _ stepped) _ _ _ read

theorem yields_listFields {fields : List (String × (ρ → Reader ρ))}
    (entered : ∀ field ∈ fields, ∀ record, Q record → Yields (field.2 record) Q) (first : Bool)
    {record : ρ} (holds : Q record) : Yields (listFields fields first record) (Q ·.2) := by
  induction fields generalizing first record with
  | nil =>
    intro text value rest read
    cases read
    exact holds
  | cons field fields ih =>
    obtain ⟨enteredFirst, enteredRest⟩ := List.forall_mem_cons.mp entered
    intro text last rest read
    rw [listFields] at read
    obtain ⟨⟨more, text⟩, -, read⟩ := bind_eq_ok_iff.mp read
    dsimp only at read
    split at read
    · cases read
      exact holds
    · obtain ⟨⟨next, text⟩, stepped, read⟩ := bind_eq_ok_iff.mp read
      exact ih enteredRest false (enteredFirst record holds _ _ _ stepped) _ _ _ read

theorem yields_record (vacant : Q format.vacant)
    (entered : ∀ field ∈ format.fields, ∀ record, Q record → Yields (field.2 record) Q)
    (limit : Nat) : Yields (record limit format) Q := by
  intro text last rest read
  rw [record] at read
  split at read
  · exact yields_objectFields entered limit true [] vacant _ _ _ read
  · obtain ⟨⟨⟨missing, found⟩, text⟩, fields, read⟩ := bind_eq_ok_iff.mp read
    dsimp only at read
    split at read
    · cases read
    · obtain ⟨text, -, read⟩ := bind_eq_ok_iff.mp read
      cases read
      exact yields_listFields entered true vacant _ _ _ fields
  · cases read

theorem holds_of_document {reader : Nat → Reader α} (yields : ∀ limit, Yields (reader limit) P)
    {text : String} {value : α} (read : document reader text = .ok value) : P value := by
  rw [document] at read
  obtain ⟨⟨found, rest⟩, first, read⟩ := bind_eq_ok_iff.mp read
  dsimp only at read
  split at read
  · cases read
    exact yields _ _ _ _ first
  · cases read

end BindingGen.Json
