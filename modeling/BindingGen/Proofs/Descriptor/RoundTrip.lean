import BindingGen.Descriptor.Writing
import BindingGen.Proofs.Json.Record
import BindingGen.Proofs.Json.Yields
import BindingGen.Proofs.Literal
import BindingGen.Proofs.Ownership

/-!
# Descriptors read back

A descriptor is written without the fields that are not set, and with its defaults as the display
texts of their literals. Not every descriptor reads back from this: a year may exceed 32 bits, and a
default of no class may have blanks around it or spell a number after all. What has been read is
free of such values (`Settled`), and whatever is settled reads back.

Results:
1. `ModuleDecl.settled_of_ofJson`: what a text describes is settled.
2. `ModuleDecl.ofJson_toJson`: a settled module reads back from its text.
3. `ModuleDecl.parse_toJson`: a loaded module, written and loaded again, is the same module.
-/

namespace BindingGen

open Json (Reader RecordFormat ReadsBack Enters Yields)

/-! ## Settled descriptors -/

/-- The default reads back from its display text. -/
def Parameter.Settled (p : Parameter) : Prop :=
  ∀ literal ∈ p.default, Literal.ofText literal.text = literal

/-- Every default reads back from its display text. -/
def FunctionDecl.Settled (f : FunctionDecl) : Prop := ∀ p ∈ f.params, p.Settled

def ClassDecl.Settled (c : ClassDecl) : Prop := ∀ f ∈ c.methods, f.Settled

/-- The year is one of 32 bits, and every default reads back from its display text. -/
structure ModuleDecl.Settled (m : ModuleDecl) : Prop where
  year : ∀ y ∈ m.year, y < Nat.pow 2 32
  functions : ∀ f ∈ m.functions, f.Settled
  classes : ∀ c ∈ m.classes, c.Settled

namespace Json

variable {α ρ : Type} {reader : Reader α} {P : α → Prop} {Q : ρ → Prop}

theorem yields_into (yields : Yields reader P) {enter : ρ → α → ρ}
    (carried : ∀ record x, Q record → P x → Q (enter record x)) :
    ∀ record, Q record → Yields (reader.into enter record) Q :=
  fun record holds => yields.map fun x => carried record x holds

/-- A value that the property does not depend on may be entered unseen. -/
theorem yields_into_any {enter : ρ → α → ρ} (kept : ∀ record x, Q record → Q (enter record x)) :
    ∀ record, Q record → Yields (reader.into enter record) Q :=
  yields_into (P := fun _ => True) (fun _ _ _ _ => trivial) fun record x holds _ =>
    kept record x holds

end Json

theorem Parameter.yields_settled (limit : Nat) :
    Yields (Json.record limit (Parameter.format limit)) Parameter.Settled := by
  refine Json.yields_record ?_ ?_ limit
  · rintro literal ⟨⟩
  · simp only [Parameter.format, List.forall_mem_cons]
    refine ⟨Json.yields_into_any ?_, Json.yields_into_any ?_, Json.yields_into_any ?_,
      Json.yields_into_any ?_, List.forall_mem_nil _⟩
    · exact fun _ _ settled => settled
    · exact fun _ _ settled => settled
    · intro p default _ literal member
      obtain ⟨text, -, rfl⟩ := Option.mem_map.mp member
      exact Literal.ofText_text_ofText text
    · exact fun _ _ settled => settled

theorem FunctionDecl.yields_settled (limit : Nat) :
    Yields (Json.record limit (FunctionDecl.format limit)) FunctionDecl.Settled := by
  refine Json.yields_record ?_ ?_ limit
  · rintro p ⟨⟩
  · simp only [FunctionDecl.format, List.forall_mem_cons]
    have params := Json.yields_list (Parameter.yields_settled limit) limit
    refine ⟨Json.yields_into_any ?_, Json.yields_into_any ?_, Json.yields_into params ?_,
      Json.yields_into_any ?_, Json.yields_into_any ?_, Json.yields_into_any ?_,
      Json.yields_into_any ?_, List.forall_mem_nil _⟩
    · exact fun _ _ settled => settled
    · exact fun _ _ settled => settled
    · exact fun _ _ _ params => params
    · exact fun _ _ settled => settled
    · exact fun _ _ settled => settled
    · exact fun _ _ settled => settled
    · exact fun _ _ settled => settled

theorem ClassDecl.yields_settled (limit : Nat) :
    Yields (Json.record limit (ClassDecl.format limit)) ClassDecl.Settled := by
  refine Json.yields_record ?_ ?_ limit
  · rintro f ⟨⟩
  · simp only [ClassDecl.format, List.forall_mem_cons]
    have methods := Json.yields_list (FunctionDecl.yields_settled limit) limit
    refine ⟨Json.yields_into_any ?_, Json.yields_into methods ?_, List.forall_mem_nil _⟩
    · exact fun _ _ settled => settled
    · exact fun _ _ _ methods => methods

theorem ModuleDecl.yields_settled (limit : Nat) :
    Yields (Json.record limit (ModuleDecl.format limit)) ModuleDecl.Settled := by
  have year (y : Nat) : y ∈ (none : Option Nat) → y < Nat.pow 2 32 := by
    rintro ⟨⟩
  refine Json.yields_record ⟨year, List.forall_mem_nil _, List.forall_mem_nil _⟩ ?_ limit
  · simp only [ModuleDecl.format, List.forall_mem_cons]
    have year := Json.yields_optional (Json.yields_unsigned32 limit)
    have functions := Json.yields_list (FunctionDecl.yields_settled limit) limit
    have classes := Json.yields_list (ClassDecl.yields_settled limit) limit
    refine ⟨Json.yields_into_any ?_, Json.yields_into_any ?_, Json.yields_into year ?_,
      Json.yields_into functions ?_, Json.yields_into classes ?_, List.forall_mem_nil _⟩
    · exact fun _ _ settled => { settled with }
    · exact fun _ _ settled => { settled with }
    · exact fun _ _ settled year => { settled with year }
    · exact fun _ _ settled functions => { settled with functions }
    · exact fun _ _ settled classes => { settled with classes }

theorem ModuleDecl.settled_of_ofJson {text : String} {d : ModuleDecl}
    (read : ModuleDecl.ofJson text = .ok d) : d.Settled :=
  Json.holds_of_document ModuleDecl.yields_settled read

/-- Methods keep their parameters when they are adopted. -/
theorem ModuleDecl.Settled.adopt {m : ModuleDecl} (settled : m.Settled) : m.adopt.Settled where
  year := settled.year
  functions := settled.functions
  classes := by
    intro c adopted f method
    obtain ⟨declared, member, rfl⟩ := List.mem_map.mp adopted
    obtain ⟨own, methodMember, rfl⟩ := List.mem_map.mp method
    exact settled.classes declared member own methodMember

/-! ## Settled descriptors read back -/

namespace Json

variable {α ρ : Type} {format : Nat → RecordFormat ρ} {reader : Nat → Reader α}
  {record last : ρ} {name : String} {fields : List (String × Option (List Char))}
  {enter : ρ → α → ρ}

theorem Enters.given {written : List Char} {value : α}
    (known : ∀ limit, (format limit).fields.lookup name = some ((reader limit).into enter))
    (back : ReadsBack reader written value)
    (others : Enters format (enter record value) fields last) :
    Enters format record ((name, some written) :: fields) last :=
  .present known (back.map (enter record)) others

/-- A value that is not set is not written, and entering none would change nothing. -/
theorem Enters.optional {enter : ρ → Option α → ρ} {written : Option (List Char)}
    {value : Option α}
    (known : ∀ limit, (format limit).fields.lookup name =
      some ((Json.optional (reader limit)).into enter))
    (back : Option.Rel (ReadsBack reader) written value) (unset : enter record none = record)
    (others : Enters format (enter record value) fields last) :
    Enters format record ((name, written) :: fields) last := by
  cases back with
  | some back => exact .given known (readsBack_optional back) others
  | none =>
    rw [unset] at others
    exact .absent others

theorem rel_readsBack_text (text : Option String) :
    Option.Rel (ReadsBack fun limit => stringValue limit .string) (text.map writtenString)
      text := by
  cases text with
  | none => exact .none
  | some text => exact .some (readsBack_string .string text)

end Json

theorem Parameter.readsBack {p : Parameter} (settled : p.Settled) :
    ReadsBack (fun limit => Json.record limit (Parameter.format limit)) p.json p := by
  have default : (p.default.map Literal.text).map Literal.ofText = p.default := by
    cases known : p.default with
    | none => rfl
    | some literal => exact congrArg some (settled literal known)
  have texts : Option.Rel (ReadsBack fun limit => Json.stringValue limit .string)
      (p.default.map fun literal => Json.writtenString literal.text)
      (p.default.map Literal.text) := by
    have texts := Json.rel_readsBack_text (p.default.map Literal.text)
    rwa [Option.map_map] at texts
  have kind : Passing.names.lookup p.kind.name = some p.kind := by
    cases p.kind <;> rfl
  have enters : Enters Parameter.format ⟨"", .positional, none, none⟩
      [("name", Json.writtenString p.name), ("kind", Json.writtenString p.kind.name),
        ("default", p.default.map fun literal => Json.writtenString literal.text),
        ("annotation", p.typeHint.map Json.writtenString)] p := by
    refine .given (fun _ => rfl) (Json.readsBack_string _ _) ?_
    refine .given (fun _ => rfl) (Json.readsBack_variant kind) ?_
    -- The text of a default is read into its literal when it is entered.
    refine .optional (fun _ => rfl) texts rfl ?_
    refine .optional (fun _ => rfl) (Json.rel_readsBack_text _) rfl ?_
    show Enters _ ⟨p.name, p.kind, (p.default.map Literal.text).map Literal.ofText, p.typeHint⟩ [] p
    rw [default]
    exact .done
  refine Json.readsBack_record (fun _ => rfl) enters ?_ (fun _ => ⟨_, .head _⟩)
  show ["name", "kind", "default", "annotation"].Nodup
  decide

theorem FunctionDecl.readsBack {f : FunctionDecl} (settled : f.Settled) :
    ReadsBack (fun limit => Json.record limit (FunctionDecl.format limit)) f.json f := by
  have params := Json.readsBack_list fun p member => Parameter.readsBack (settled p member)
  have enters : Enters FunctionDecl.format ⟨"", none, [], false, false, none, none⟩
      [("name", Json.writtenString f.name), ("owner", f.owner.map Json.writtenString),
        ("params", Json.writtenList (f.params.map (·.json))),
        ("varargs", Json.writtenBool f.varargs), ("varkw", Json.writtenBool f.varkw),
        ("doc", f.doc.map Json.writtenString),
        ("returns", f.returns.map Json.writtenString)] f := by
    refine .given (fun _ => rfl) (Json.readsBack_string _ _) ?_
    refine .optional (fun _ => rfl) (Json.rel_readsBack_text _) rfl ?_
    refine .given (fun _ => rfl) params ?_
    refine .given (fun _ => rfl) (Json.readsBack_boolean _) ?_
    refine .given (fun _ => rfl) (Json.readsBack_boolean _) ?_
    refine .optional (fun _ => rfl) (Json.rel_readsBack_text _) rfl ?_
    refine .optional (fun _ => rfl) (Json.rel_readsBack_text _) rfl ?_
    exact .done
  refine Json.readsBack_record (fun _ => rfl) enters ?_ (fun _ => ⟨_, .head _⟩)
  show ["name", "owner", "params", "varargs", "varkw", "doc", "returns"].Nodup
  decide

theorem ClassDecl.readsBack {c : ClassDecl} (settled : c.Settled) :
    ReadsBack (fun limit => Json.record limit (ClassDecl.format limit)) c.json c := by
  have methods := Json.readsBack_list fun f member => FunctionDecl.readsBack (settled f member)
  have enters : Enters ClassDecl.format ⟨"", []⟩
      [("name", Json.writtenString c.name),
        ("methods", Json.writtenList (c.methods.map (·.json)))] c := by
    refine .given (fun _ => rfl) (Json.readsBack_string _ _) ?_
    refine .given (fun _ => rfl) methods ?_
    exact .done
  refine Json.readsBack_record (fun _ => rfl) enters ?_ (fun _ => ⟨_, .head _⟩)
  show ["name", "methods"].Nodup
  decide

theorem ModuleDecl.readsBack {m : ModuleDecl} (settled : m.Settled) :
    ReadsBack (fun limit => Json.record limit (ModuleDecl.format limit)) m.json m := by
  have functions := Json.readsBack_list fun f member =>
    FunctionDecl.readsBack (settled.functions f member)
  have classes := Json.readsBack_list fun c member =>
    ClassDecl.readsBack (settled.classes c member)
  have year : Option.Rel (ReadsBack Json.unsigned32) (m.year.map Json.writtenNat) m.year := by
    cases known : m.year with
    | none => exact .none
    | some year => exact .some (Json.readsBack_unsigned32 (settled.year year known))
  have enters : Enters ModuleDecl.format ⟨"", none, none, [], []⟩
      [("name", Json.writtenString m.name), ("author", m.author.map Json.writtenString),
        ("year", m.year.map Json.writtenNat),
        ("functions", Json.writtenList (m.functions.map (·.json))),
        ("classes", Json.writtenList (m.classes.map (·.json)))] m := by
    refine .given (fun _ => rfl) (Json.readsBack_string _ _) ?_
    refine .optional (fun _ => rfl) (Json.rel_readsBack_text _) rfl ?_
    refine .optional (fun _ => rfl) year rfl ?_
    refine .given (fun _ => rfl) functions ?_
    refine .given (fun _ => rfl) classes ?_
    exact .done
  refine Json.readsBack_record (fun _ => rfl) enters ?_ (fun _ => ⟨_, .head _⟩)
  show ["name", "author", "year", "functions", "classes"].Nodup
  decide

theorem ModuleDecl.ofJson_toJson {m : ModuleDecl} (settled : m.Settled) :
    ModuleDecl.ofJson m.toJson = .ok m :=
  Json.document_written (ModuleDecl.readsBack settled)

/-- A loaded module is written as a text that loads as the same module. -/
theorem ModuleDecl.parse_toJson {name text : String} {m : ModuleDecl}
    (loaded : ModuleDecl.parse name text = .ok m) : ModuleDecl.parse m.name m.toJson = .ok m := by
  obtain ⟨d, read, -, valid, rfl⟩ := ModuleDecl.parse_eq_ok_iff.mp loaded
  have back := ModuleDecl.ofJson_toJson (ModuleDecl.settled_of_ofJson read).adopt
  have adopted := d.adopt_adopt
  exact ModuleDecl.parse_eq_ok_iff.mpr
    ⟨d.adopt, back, rfl, by rwa [adopted], adopted.symm⟩

/-- A descriptor whose records are lists, with defaults that are not in their display texts. -/
def defaultsText : String :=
  "[\"m\",null,2024,[],[[\"C\",[[\"f\",null,[[\"a\",\"positional\",\"+07\"]," ++
    "[\"b\",\"positional\",\"-NAN\"],[\"c\",\"positional\",\"\\t\\\"\\\"\"]," ++
    "[\"d\",\"positional\",\"[ ] \"]]]]]]]"

/-- The module that `defaultsText` describes. -/
def defaultsModule : ModuleDecl :=
  let parameter (name : String) (default : Literal) : Parameter :=
    ⟨name, .positional, some default, none⟩
  let params := [parameter "a" (.int 7), parameter "b" (.float .nan), parameter "c" (.str ""),
    parameter "d" (.other "[ ]")]
  ⟨"m", none, some 2024, [], [⟨"C", [⟨"f", some "C", params, false, false, none, none⟩]⟩]⟩

theorem ModuleDecl.parse_toJson_defaults :
    ModuleDecl.parse "m" defaultsText = .ok defaultsModule ∧
      ModuleDecl.parse defaultsModule.name defaultsModule.toJson = .ok defaultsModule := by
  have loaded : ModuleDecl.parse "m" defaultsText = .ok defaultsModule := by decide +kernel
  exact ⟨loaded, ModuleDecl.parse_toJson loaded⟩

end BindingGen
