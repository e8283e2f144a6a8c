import BindingGen.Json.Record
import BindingGen.Proofs.Json.Value

/-!
# Records read back

An object is written with the fields that have a value, in the order of the format, and read field
by field into a record. `Enters` follows the record through the fields: one without a value leaves
it alone, the others enter theirs.

Results:
1. `readsBack_record`: a record reads back from its object if its fields enter one after the other,
   no name stands twice and the required one is there.
2. `document_written`: a text with nothing but a value reads as this value.
-/

namespace BindingGen.Json

variable {ρ : Type} {format : Nat → RecordFormat ρ}

/-- A field as it is written; one without a value is left out. -/
def writtenField : String × Option (List Char) → Option (List Char)
  | (name, some value) => some (writtenString name ++ ':' :: value)
  | (_, none) => none

theorem writtenObject_eq (fields : List (String × Option (List Char))) :
    writtenObject fields =
      '\x7b' :: (separated true (fields.filterMap writtenField) ++ ['\x7d']) := by
  rw [← intercalate_eq_separated]
  rfl

/-- `Enters format record fields last`: the written values of the fields, entered one after the
other, lead from one record to the last. -/
inductive Enters (format : Nat → RecordFormat ρ) :
    ρ → List (String × Option (List Char)) → ρ → Prop
  | done {record : ρ} : Enters format record [] record
  | absent {record last : ρ} {name : String} {fields : List (String × Option (List Char))} :
      Enters format record fields last → Enters format record ((name, none) :: fields) last
  | present {record next last : ρ} {name : String} {value : List Char}
      {fields : List (String × Option (List Char))} {entry : Nat → ρ → Reader ρ} :
      (∀ limit, (format limit).fields.lookup name = some (entry limit)) →
      ReadsBack (fun limit => entry limit record) value next → Enters format next fields last →
      Enters format record ((name, some value) :: fields) last

/-! ## The fields of an object -/

/-- The next key stands after the comma that is due. -/
theorem nextKey_separator (first : Bool) (text : List Char) :
    nextKey first ((if first then [] else [',']) ++ '"' :: text) = .ok (true, text) := by
  cases first <;> rfl

theorem nextKey_closer (first : Bool) (rest : List Char) :
    nextKey first ('\x7d' :: rest) = .ok (false, rest) := by
  cases first <;> rfl

/-- The induction is on the fields that are still to be entered. What has been given so far has to
be kept along, since a name may not come twice and the required one must have come at the end. -/
theorem objectFields_written {record last : ρ} {fields : List (String × Option (List Char))}
    (enters : Enters format record fields last) (distinct : (fields.map Prod.fst).Nodup)
    {limit steps : Nat} {given : List String} (fresh : ∀ name ∈ given, name ∉ fields.map Prod.fst)
    (required : (format limit).required ∈ given ∨
      ∃ value, ((format limit).required, some value) ∈ fields)
    (enough : (fields.filterMap writtenField).length < steps)
    (short : ∀ part ∈ fields.filterMap writtenField, part.length < limit)
    (first : Bool) (rest : List Char) :
    objectFields limit (format limit) steps first given record
      (separated first (fields.filterMap writtenField) ++ '\x7d' :: rest) = .ok (last, rest) := by
  induction enters generalizing steps given first with
  | @done record =>
    obtain ⟨steps, rfl⟩ := Nat.exists_eq_add_one.mpr enough
    have named : given.contains (format limit).required = true := by
      rcases required with named | ⟨value, impossible⟩
      · exact List.contains_iff_mem.mpr named
      · cases impossible
    show objectFields limit (format limit) (steps + 1) first given record ('\x7d' :: rest) = _
    rw [objectFields, nextKey_closer]
    show (if given.contains (format limit).required = true then _ else _) = _
    rw [if_pos named]
    rfl
  | absent enters ih =>
    refine ih (List.nodup_cons.mp distinct).2 ?_ ?_ enough short first
    · exact fun name member later => fresh name member (List.mem_cons_of_mem _ later)
    · refine required.imp_right ?_
      rintro ⟨value, member⟩
      cases member with
      | tail _ later => exact ⟨value, later⟩
  | @present record next last name value fields entry known back enters ih =>
    obtain ⟨steps, rfl⟩ := Nat.exists_eq_add_one.mpr (Nat.zero_lt_of_lt enough)
    obtain ⟨unused, distinct⟩ := List.nodup_cons.mp distinct
    -- The bound of the whole text covers the key and the value.
    have partShort := short (writtenString name ++ ':' :: value) List.mem_cons_self
    rw [List.length_append, List.length_cons] at partShort
    have isNew : given.contains name = false := by
      rw [← Bool.not_eq_true, List.contains_iff_mem]
      exact fun member => fresh name member List.mem_cons_self
    let after := separated false (fields.filterMap writtenField) ++ '\x7d' :: rest
    have nameShort : (writtenString name).length < limit := by omega
    have valueShort : value.length < limit := by omega
    obtain ⟨text, shape, named⟩ := string_of_written name nameShort (':' :: (value ++ after))
    have read := back.reads valueShort
      (atEnd_separated (fields.filterMap writtenField) '\x7d' (.inr rfl) rest)
    have whole : separated first (((name, some value) :: fields).filterMap writtenField) ++
        '\x7d' :: rest = (if first then [] else [',']) ++ '"' :: text := by
      rw [← shape]
      show (if first then [] else [',']) ++ (writtenString name ++ ':' :: value) ++
        separated false (fields.filterMap writtenField) ++ '\x7d' :: rest = _
      simp only [List.append_assoc, List.cons_append, after]
    rw [whole, objectFields, nextKey_separator]
    show (string limit text >>= _) = _
    rw [named]
    dsimp only [bind, Except.bind]
    rw [known]
    dsimp only
    rw [if_neg (Bool.eq_false_iff.mp isNew)]
    show (entry limit record (value ++ after) >>= _) = _
    rw [read]
    show objectFields limit (format limit) steps false (name :: given) next after = _
    refine ih distinct ?_ ?_ (Nat.lt_of_succ_lt_succ enough)
      (fun part member => short part (List.mem_cons_of_mem _ member)) false
    · rintro given' member
      rcases List.mem_cons.mp member with rfl | earlier
      · exact unused
      · exact fun later => fresh given' earlier (List.mem_cons_of_mem _ later)
    · rcases required with earlier | ⟨value', member⟩
      · exact .inl (List.mem_cons_of_mem _ earlier)
      · rcases List.mem_cons.mp member with same | later
        · have named : (format limit).required = name := congrArg Prod.fst same
          exact .inl (named ▸ List.mem_cons_self)
        · exact .inr ⟨value', later⟩

/-! ## Objects and texts -/

theorem readsBack_record {vacant last : ρ} {fields : List (String × Option (List Char))}
    (vacant_eq : ∀ limit, (format limit).vacant = vacant)
    (enters : Enters format vacant fields last) (distinct : (fields.map Prod.fst).Nodup)
    (required : ∀ limit, ∃ value, ((format limit).required, some value) ∈ fields) :
    ReadsBack (fun limit => record limit (format limit)) (writtenObject fields) last where
  opens := ⟨'\x7b', _, rfl, by decide⟩
  reads := by
    intro limit rest enough _
    have shape := writtenObject_eq fields
    have length := length_le_length_separated (fields.filterMap writtenField)
    rw [shape, List.length_cons, List.length_append, List.length_singleton] at enough
    have short : ∀ part ∈ fields.filterMap writtenField, part.length < limit := by
      intro part member
      have := length_le_of_mem_separated member true
      omega
    have start (text : List Char) : skipSpaces ('\x7b' :: text) = '\x7b' :: text :=
      skipSpaces_cons (by decide) text
    rw [shape, List.cons_append, record, start, List.append_assoc]
    show objectFields limit (format limit) limit true [] (format limit).vacant _ = _
    rw [vacant_eq]
    exact objectFields_written enters distinct (fun _ member => absurd member List.not_mem_nil)
      (.inr (required limit)) (by omega) short true rest

theorem document_written {α : Type} {reader : Nat → Reader α} {written : List Char} {value : α}
    (back : ReadsBack reader written value) :
    document reader (String.ofList written) = .ok value := by
  have enough : written.length < written.length + 1 := Nat.lt_succ_self _
  have read := back.reads enough atEnd_nil
  rw [List.append_nil] at read
  rw [document, String.toList_ofList]
  show (reader (written.length + 1) written >>= _) = _
  rw [read]
  rfl

end BindingGen.Json
