import BindingGen.Proofs.Comment
import BindingGen.Proofs.Reordering
import BindingGen.Proofs.Symbol.Fragment

/-!
# What metadata adds to the table

The author and the year of a module and the return annotations of its functions inform a reader.
They go into comments alone, and a comment is not code. Yet the collector is shown every fragment,
so that a comment adds to the table what its text refers to.

Results:
1. `ModulePlan.ofValid_withoutMetadata`: a module without its metadata is accepted too, and its plan
   is the same but for that.
2. `ModulePlan.mem_table_iff_withoutMetadata`: the table lists what it lists without metadata, and
   what the metadata refers to.
3. `Artifact.table_of_metadata`: two modules that differ in metadata alone have the same table if
   and only if their metadata refers to the same strings, apart from those that are listed anyway.
4. `creditedModule_listed`: an author that refers to a string is enough to list it.
-/

namespace BindingGen

open BindingGen.Symbol (references_fixed references_head references_tail references_gap)

/-! ## Leaving out metadata -/

/-- The function without its return annotation. -/
def FunctionDecl.withoutMetadata (f : FunctionDecl) : FunctionDecl := { f with returns := none }

/-- The class without the return annotations of its methods. -/
def ClassDecl.withoutMetadata (c : ClassDecl) : ClassDecl :=
  { c with methods := c.methods.map (·.withoutMetadata) }

/-- The plan without the return annotation. -/
def FunctionPlan.withoutMetadata (plan : FunctionPlan) : FunctionPlan :=
  { plan with decl := plan.decl.withoutMetadata }

/-- The plan without the return annotations of the methods. -/
def ClassPlan.withoutMetadata (plan : ClassPlan) : ClassPlan :=
  ⟨plan.decl.withoutMetadata, plan.maker.map (·.withoutMetadata),
    plan.methods.map (·.withoutMetadata)⟩

namespace ModuleDecl

/-- The module without author, year and return annotations. -/
def withoutMetadata (m : ModuleDecl) : ModuleDecl where
  name := m.name
  author := none
  year := none
  functions := m.functions.map (·.withoutMetadata)
  classes := m.classes.map (·.withoutMetadata)

/-- The modules differ in author, year and return annotations at most. -/
def SameButMetadata (m other : ModuleDecl) : Prop := m.withoutMetadata = other.withoutMetadata

/-- The strings that the author and the return annotations refer to. -/
def metadataReferences (m : ModuleDecl) : List String :=
  (m.author.toList ++ m.callables.flatMap (·.returns.toList)).flatMap Symbol.references

theorem adopt_withoutMetadata (m : ModuleDecl) :
    m.withoutMetadata.adopt = m.adopt.withoutMetadata := by
  simp only [adopt, withoutMetadata, ClassDecl.adopt, ClassDecl.withoutMetadata, List.map_map,
    Function.comp_def, FunctionDecl.withoutMetadata]

theorem callables_withoutMetadata (m : ModuleDecl) :
    m.withoutMetadata.callables = m.callables.map (·.withoutMetadata) := by
  simp only [callables, withoutMetadata, ClassDecl.withoutMetadata, List.map_append,
    List.flatMap_map, List.map_flatMap]

end ModuleDecl

/-- The plan without author, year and return annotations. -/
def ModulePlan.withoutMetadata (plan : ModulePlan) : ModulePlan :=
  ⟨plan.decl.withoutMetadata, plan.functions.map (·.withoutMetadata),
    plan.classes.map (·.withoutMetadata)⟩

/-! ## Acceptance and plans -/

theorem FunctionDecl.WellNamed.withoutMetadata {f : FunctionDecl} (named : f.WellNamed) :
    f.withoutMetadata.WellNamed :=
  ⟨named.name, named.params, named.distinct⟩

theorem ClassDecl.WellNamed.withoutMetadata {c : ClassDecl} (named : c.WellNamed) :
    c.withoutMetadata.WellNamed := by
  obtain ⟨name, methods, single, distinct⟩ := named
  refine ⟨name, List.forall_mem_map.mpr fun f member => (methods f member).withoutMetadata, ?_, ?_⟩
  · rw [constructors, ClassDecl.withoutMetadata, List.filter_map, List.length_map]
    exact single
  · rw [ordinary, ClassDecl.withoutMetadata, List.filter_map, List.map_map]
    exact distinct

theorem ModuleDecl.WellNamed.withoutMetadata {m : ModuleDecl} (named : m.WellNamed) :
    m.withoutMetadata.WellNamed := by
  obtain ⟨name, functions, classes, distinct⟩ := named
  refine ⟨name, List.forall_mem_map.mpr fun f member => (functions f member).withoutMetadata,
    List.forall_mem_map.mpr fun c member => (classes c member).withoutMetadata, ?_⟩
  rw [ModuleDecl.withoutMetadata, List.map_map, List.map_map]
  exact distinct

theorem FunctionPlan.ofDecl_withoutMetadata {f : FunctionDecl} {plan : FunctionPlan}
    (planned : ofDecl f = .ok plan) : ofDecl f.withoutMetadata = .ok plan.withoutMetadata := by
  obtain ⟨rfl, shaped, slots, raw⟩ := ofDecl_eq_ok_iff.mp planned
  exact ofDecl_eq_ok_iff.mpr ⟨rfl, shaped, slots, raw⟩

/-- Steps that are taken without metadata have their results without metadata. -/
theorem forall₂_withoutMetadata {α β : Type} {R : α → β → Prop} {f : α → α} {g : β → β}
    {as : List α} {bs : List β} (step : ∀ a b, R a b → R (f a) (g b))
    (related : List.Forall₂ R as bs) : List.Forall₂ R (as.map f) (bs.map g) :=
  List.forall₂_map_left_iff.mpr (List.forall₂_map_right_iff.mpr (related.imp step))

theorem ClassPlan.ofDecl_withoutMetadata {c : ClassDecl} {plan : ClassPlan}
    (planned : ofDecl c = .ok plan) : ofDecl c.withoutMetadata = .ok plan.withoutMetadata := by
  obtain ⟨rfl, plans, found, maker, methods⟩ := ofDecl_eq_ok_iff.mp planned
  refine ofDecl_eq_ok_iff.mpr ⟨rfl, plans.map (·.withoutMetadata),
    forall₂_withoutMetadata (fun _ _ => FunctionPlan.ofDecl_withoutMetadata) found, ?_, ?_⟩
  · rw [List.filter_map, List.getLast?_map]
    exact congrArg (Option.map _) maker
  · rw [List.filter_map]
    exact congrArg (List.map _) methods

namespace ModulePlan

variable {m : ModuleDecl} {plan : ModulePlan}

theorem ofDecl_withoutMetadata (planned : ofDecl m = .ok plan) :
    ofDecl m.withoutMetadata = .ok plan.withoutMetadata := by
  obtain ⟨rfl, functions, classes⟩ := ofDecl_eq_ok_iff.mp planned
  exact ofDecl_eq_ok_iff.mpr ⟨rfl,
    forall₂_withoutMetadata (fun _ _ => FunctionPlan.ofDecl_withoutMetadata) functions,
    forall₂_withoutMetadata (fun _ _ => ClassPlan.ofDecl_withoutMetadata) classes⟩

theorem ofValid_withoutMetadata (accepted : ofValid m = .ok plan) :
    ofValid m.withoutMetadata = .ok plan.withoutMetadata := by
  obtain ⟨valid, planned⟩ := ofValid_eq_ok_iff.mp accepted
  have named := (ModuleDecl.wellNamed_of_validate valid).withoutMetadata
  refine ofValid_eq_ok_iff.mpr ?_
  rw [ModuleDecl.adopt_withoutMetadata]
  exact ⟨mapError_eq_ok_iff.mpr (ModuleDecl.check_eq_ok_iff.mpr named),
    ofDecl_withoutMetadata planned⟩

end ModulePlan

/-! ## Code and comments -/

/-- The fragments that are no comments. -/
def codeFragments (fragments : List Fragment) : List Fragment :=
  fragments.filter (!·.isComment)

theorem codeFragments_append (a b : List Fragment) :
    codeFragments (a ++ b) = codeFragments a ++ codeFragments b := List.filter_append ..

theorem codeFragments_flatMap {α : Type} (as : List α) (f : α → List Fragment) :
    codeFragments (as.flatMap f) = as.flatMap fun a => codeFragments (f a) :=
  List.filter_flatMap ..

namespace ClassPlan

variable (names : NameScheme) (plan : ClassPlan)

theorem localsPart_withoutMetadata :
    plan.withoutMetadata.localsPart names = plan.localsPart names := by
  rw [localsPart, localsPart, withoutMetadata, List.isEmpty_map, List.map_map]
  rfl

theorem typePart_withoutMetadata :
    plan.withoutMetadata.typePart names = plan.typePart names := by
  rw [typePart, typePart, withoutMetadata, List.isEmpty_map, Option.map_map]
  rfl

theorem codeFragments_withoutMetadata :
    codeFragments (plan.withoutMetadata.classFragments names) =
      codeFragments (plan.classFragments names) := by
  have methods : codeFragments (plan.withoutMetadata.methods.flatMap (·.unitFragments names)) =
      codeFragments (plan.methods.flatMap (·.unitFragments names)) := by
    rw [codeFragments_flatMap, codeFragments_flatMap, withoutMetadata, List.flatMap_map]
    rfl
  have maker : codeFragments (plan.withoutMetadata.maker.toList.flatMap
        (·.makerFragments names plan.withoutMetadata.decl.name)) =
      codeFragments (plan.maker.toList.flatMap (·.makerFragments names plan.decl.name)) := by
    rw [codeFragments_flatMap, codeFragments_flatMap]
    unfold withoutMetadata
    cases plan.maker <;> rfl
  rw [classFragments, classFragments, localsPart_withoutMetadata, typePart_withoutMetadata]
  simp only [codeFragments_append, methods, maker]
  rfl

end ClassPlan

namespace ModulePlan

variable (names : NameScheme) (plan : ModulePlan)

theorem ending_withoutMetadata : plan.withoutMetadata.ending names = plan.ending names := by
  have globals : plan.withoutMetadata.globalsPart names = plan.globalsPart names := by
    rw [globalsPart, globalsPart, withoutMetadata, List.map_map, List.map_map]
    rfl
  rw [ending, ending, globals]
  rfl

/-- The fragments behind the comment at the head of a source. -/
def body : List Fragment :=
  (plan.opening names).tail ++ plan.functions.flatMap (·.unitFragments names) ++
    plan.classes.flatMap (·.classFragments names) ++ plan.ending names

theorem fragments_eq_header_cons :
    (plan.listing names).fragments =
      .header plan.decl.name plan.decl.author plan.decl.year :: plan.body names := by
  rw [fragments_listing]
  rfl

theorem codeFragments_withoutMetadata :
    codeFragments (plan.withoutMetadata.body names) = codeFragments (plan.body names) := by
  have functions : codeFragments
        (plan.withoutMetadata.functions.flatMap (·.unitFragments names)) =
      codeFragments (plan.functions.flatMap (·.unitFragments names)) := by
    rw [codeFragments_flatMap, codeFragments_flatMap, withoutMetadata, List.flatMap_map]
    rfl
  have classes : codeFragments
        (plan.withoutMetadata.classes.flatMap (·.classFragments names)) =
      codeFragments (plan.classes.flatMap (·.classFragments names)) := by
    rw [codeFragments_flatMap, codeFragments_flatMap, withoutMetadata, List.flatMap_map]
    simp only [ClassPlan.codeFragments_withoutMetadata]
  simp only [body, codeFragments_append, functions, classes, ending_withoutMetadata]
  rfl

end ModulePlan

/-! ## What comments refer to -/

theorem references_signature (f : FunctionDecl) :
    Symbol.references f.signature =
      Symbol.references f.withoutMetadata.signature ++
        f.returns.toList.flatMap Symbol.references := by
  have items : f.withoutMetadata.signatureItems = f.signatureItems :=
    FunctionDecl.signatureItems_congr rfl rfl rfl
  unfold FunctionDecl.signature
  rw [items]
  cases f.returns with
  | none =>
    rw [Option.toList_none, List.flatMap_nil, List.append_nil]
    rfl
  | some returns =>
    dsimp only [FunctionDecl.withoutMetadata]
    rw [← String.append_assoc, references_gap rfl (by decide), String.append_empty,
      Option.toList_some, List.flatMap_singleton]

namespace Fragment

theorem references_comment (text : String) :
    (comment text).references = Symbol.references text := by
  rw [references_of_line rfl, references_head rfl (by decide), Symbol.references_lineCommentText]

/-- The comment at the head of a source refers to what the name of the module and its author refer
to; a year refers to nothing. -/
theorem references_header (module : String) (author : Option String) (year : Option Nat) :
    (header module author year).references =
      Symbol.references module ++ author.toList.flatMap Symbol.references := by
  have name : Symbol.references
      (" * Native bindings for the '" ++ blockCommentText module ++ "' module.") =
        Symbol.references module := by
    rw [references_tail rfl (by decide), references_head rfl (by decide),
      Symbol.references_blockCommentText]
  have credit (holder : String) : Symbol.references (" * Copyright (c) " ++
      blockCommentText holder) = Symbol.references holder := by
    rw [references_head rfl (by decide), Symbol.references_blockCommentText]
  have dated (year : Nat) : Symbol.references year.repr = [] := references_nat year
  have signed (year : Nat) (author : String) :
      Symbol.references (year.repr ++ " " ++ author) = Symbol.references author := by
    rw [references_gap rfl (by decide), dated, List.nil_append]
  have opener : Symbol.references "/*" = [] := references_fixed rfl (by decide)
  have empty : Symbol.references " *" = [] := references_fixed rfl (by decide)
  have closer : Symbol.references " */" = [] := references_fixed rfl (by decide)
  have notice : Symbol.references " * Generated by mpgen. Function bodies are placeholders." = [] :=
    references_fixed rfl (by decide +kernel)
  rw [references, lines]
  unfold headerLines
  cases year <;> cases author <;>
    simp [name, credit, dated, signed, opener, empty, closer, notice]

end Fragment

namespace ModulePlan

variable {m : ModuleDecl} {plan : ModulePlan}

/-- A source refers to what its head, its signatures and its code refer to. -/
theorem mem_references_listing (names : NameScheme) (accepted : ofValid m = .ok plan) {s : String} :
    s ∈ (plan.listing names).fragments.flatMap Fragment.references ↔
      s ∈ (Fragment.header plan.decl.name plan.decl.author plan.decl.year).references ∨
      (∃ f ∈ m.callables, s ∈ Symbol.references f.signature) ∨
      s ∈ (codeFragments (plan.body names)).flatMap Fragment.references := by
  have listed := fragments_eq_header_cons names plan
  simp only [listed, List.flatMap_cons, List.mem_append]
  refine or_congr_right ?_
  simp only [List.mem_flatMap]
  constructor
  · rintro ⟨fragment, member, found⟩
    cases comment : fragment.isComment with
    | false => exact .inr ⟨fragment, List.mem_filter.mpr ⟨member, by rw [comment]; rfl⟩, found⟩
    | true =>
      obtain ⟨text, rfl⟩ := Fragment.isComment_iff.mp comment
      obtain ⟨f, declared, rfl⟩ := (comment_mem_iff names accepted).mp
        (listed ▸ List.mem_cons_of_mem _ member)
      exact .inl ⟨f, declared, Fragment.references_comment _ ▸ found⟩
  · rintro (⟨f, declared, found⟩ | ⟨fragment, member, found⟩)
    · have member := (comment_mem_iff names accepted).mpr ⟨f, declared, rfl⟩
      rw [listed, List.mem_cons] at member
      refine ⟨_, member.resolve_left nofun, ?_⟩
      rwa [Fragment.references_comment]
    · exact ⟨fragment, (List.mem_filter.mp member).1, found⟩

/-- Metadata adds to the table what it refers to, and changes nothing else. -/
theorem mem_table_iff_withoutMetadata (names : NameScheme) (accepted : ofValid m = .ok plan)
    {s : String} :
    s ∈ (plan.listing names).table.toList ↔
      s ∈ (plan.withoutMetadata.listing names).table.toList ∨
        s ≠ reservedSymbol ∧ s ∈ m.metadataReferences := by
  have decl := (ofDecl_eq_ok_iff.mp (ofValid_eq_ok_iff.mp accepted).2).1
  have author : plan.decl.author = m.author := by
    rw [decl]
    rfl
  have head : s ∈ (Fragment.header plan.decl.name plan.decl.author plan.decl.year).references ↔
      s ∈ Symbol.references plan.decl.name ∨ s ∈ m.author.toList.flatMap Symbol.references := by
    rw [Fragment.references_header, author, List.mem_append]
  have bareHead : s ∈ (Fragment.header plan.withoutMetadata.decl.name
        plan.withoutMetadata.decl.author plan.withoutMetadata.decl.year).references ↔
      s ∈ Symbol.references plan.decl.name := by
    rw [Fragment.references_header, withoutMetadata, ModuleDecl.withoutMetadata, Option.toList_none,
      List.flatMap_nil, List.append_nil]
  have signatures : (∃ f ∈ m.callables, s ∈ Symbol.references f.signature) ↔
      (∃ f ∈ m.withoutMetadata.callables, s ∈ Symbol.references f.signature) ∨
        ∃ f ∈ m.callables, s ∈ f.returns.toList.flatMap Symbol.references := by
    rw [ModuleDecl.callables_withoutMetadata]
    constructor
    · rintro ⟨f, declared, found⟩
      rw [references_signature, List.mem_append] at found
      exact found.imp (fun found => ⟨_, List.mem_map_of_mem declared, found⟩)
        fun found => ⟨f, declared, found⟩
    · rintro (⟨_, declared, found⟩ | ⟨f, declared, found⟩)
      · obtain ⟨f, original, rfl⟩ := List.mem_map.mp declared
        exact ⟨f, original, references_signature f ▸ List.mem_append_left _ found⟩
      · exact ⟨f, declared, references_signature f ▸ List.mem_append_right _ found⟩
  have metadata : s ∈ m.metadataReferences ↔
      s ∈ m.author.toList.flatMap Symbol.references ∨
        ∃ f ∈ m.callables, s ∈ f.returns.toList.flatMap Symbol.references := by
    rw [ModuleDecl.metadataReferences, List.flatMap_append, List.flatMap_assoc, List.mem_append]
    exact or_congr_right List.mem_flatMap
  rw [Listing.mem_table, Listing.mem_table, mem_references_listing names accepted,
    mem_references_listing names (ofValid_withoutMetadata accepted), signatures, metadata,
    codeFragments_withoutMetadata, head, bareHead, ← and_or_left]
  exact and_congr_right fun _ => (or_congr_right or_right_comm).trans or_or_or_comm

end ModulePlan

namespace Artifact

variable {layout : Layout} {m other : ModuleDecl} {a b : Artifact}

/-- Modules that differ in metadata alone have the same table of interned strings, with the same
text, if and only if their metadata refers to the same strings, apart from those that the module
without metadata lists anyway. -/
theorem table_of_metadata (alike : m.SameButMetadata other)
    (accepted : generateWith layout m = .ok a) (accepted' : generateWith layout other = .ok b) :
    ∃ c, generateWith layout m.withoutMetadata = .ok c ∧
      (∀ s, s ∈ a.table.toList ↔
        s ∈ c.table.toList ∨ s ≠ reservedSymbol ∧ s ∈ m.metadataReferences) ∧
      ((b.table = a.table ∧ b.symbols = a.symbols) ↔
        ∀ s, s ≠ reservedSymbol → s ∉ c.table.toList →
          (s ∈ m.metadataReferences ↔ s ∈ other.metadataReferences)) := by
  obtain ⟨plan, planned, rfl⟩ := generateWith_eq_ok accepted
  obtain ⟨plan', planned', rfl⟩ := generateWith_eq_ok accepted'
  have bare := ModulePlan.ofValid_withoutMetadata planned
  -- Both plans are the same without metadata, since they are made from the same module then.
  have same : plan'.withoutMetadata = plan.withoutMetadata := by
    have bare' := ModulePlan.ofValid_withoutMetadata planned'
    rw [← alike, bare] at bare'
    exact (Except.ok.inj bare').symm
  have name : plan'.decl.name = plan.decl.name := by
    have found := congrArg (·.decl.name) same
    exact found
  have bareTable : (ofPlan layout plan.withoutMetadata).table =
      (plan.withoutMetadata.listing ⟨plan.decl.name⟩).table := rfl
  have listed (s : String) := ModulePlan.mem_table_iff_withoutMetadata ⟨plan.decl.name⟩ planned
    (s := s)
  have listed' (s : String) := ModulePlan.mem_table_iff_withoutMetadata ⟨plan.decl.name⟩ planned'
    (s := s)
  refine ⟨_, generateWith_of_ok bare, listed, ?_⟩
  rw [symbols_ofPlan, symbols_ofPlan, table_ofPlan, table_ofPlan, bareTable, name]
  constructor
  · rintro ⟨table, -⟩ s ordinary unlisted
    have found := listed s
    have found' := listed' s
    rw [table, same, found] at found'
    simpa only [unlisted, false_or, and_iff_right ordinary] using found'
  · intro agree
    have table :
        (plan'.listing ⟨plan.decl.name⟩).table = (plan.listing ⟨plan.decl.name⟩).table := by
      refine Listing.table_eq_of_mem_iff fun s => ?_
      rw [listed s, listed' s, same]
      refine or_congr_right' fun unlisted => and_congr_right fun ordinary => ?_
      exact (agree s ordinary unlisted).symm
    rw [table]
    exact ⟨rfl, rfl⟩

end Artifact

/-! ## Metadata that is listed -/

theorem returnModule_unlisted :
    (returnModule "int").SameButMetadata (returnModule "str") ∧
      ∃ a b, Artifact.generateWith .standard (returnModule "int") = .ok a ∧
        Artifact.generateWith .standard (returnModule "str") = .ok b ∧
        b.table = a.table ∧ b.symbols = a.symbols := by
  have alike : (returnModule "int").SameButMetadata (returnModule "str") := rfl
  have planned : ModulePlan.ofValid (returnModule "int") = .ok (returnPlan "int") := rfl
  have planned' : ModulePlan.ofValid (returnModule "str") = .ok (returnPlan "str") := rfl
  have accepted := @Artifact.generateWith_of_ok .standard _ _ planned
  have accepted' := @Artifact.generateWith_of_ok .standard _ _ planned'
  obtain ⟨c, -, -, same⟩ := Artifact.table_of_metadata alike accepted accepted'
  have none : (returnModule "int").metadataReferences = [] ∧
      (returnModule "str").metadataReferences = [] := by decide +kernel
  refine ⟨alike, _, _, accepted, accepted', same.mpr fun s _ _ => ?_⟩
  rw [none.1, none.2]

/-- A module with this author that declares nothing. -/
def creditedModule (author : Option String) : ModuleDecl := ⟨"m", author, none, [], []⟩

/-- An author, and likewise a return annotation, that refers to a string is enough to list it. -/
theorem creditedModule_listed :
    ((creditedModule none).SameButMetadata (creditedModule (some "MP_QSTR_x")) ∧
      ∃ a b, Artifact.generateWith .standard (creditedModule none) = .ok a ∧
        Artifact.generateWith .standard (creditedModule (some "MP_QSTR_x")) = .ok b ∧
        "x" ∉ a.table.toList ∧ "x" ∈ b.table.toList) ∧
    (returnModule "int").SameButMetadata (returnModule "MP_QSTR_x") ∧
      ∃ a b, Artifact.generateWith .standard (returnModule "int") = .ok a ∧
        Artifact.generateWith .standard (returnModule "MP_QSTR_x") = .ok b ∧
        "x" ∉ a.table.toList ∧ "x" ∈ b.table.toList := by
  have bare : ModulePlan.ofValid (creditedModule none) = .ok ⟨creditedModule none, [], []⟩ := rfl
  have credited : ModulePlan.ofValid (creditedModule (some "MP_QSTR_x")) =
      .ok ⟨creditedModule (some "MP_QSTR_x"), [], []⟩ := rfl
  have plain : ModulePlan.ofValid (returnModule "int") = .ok (returnPlan "int") := rfl
  have annotated : ModulePlan.ofValid (returnModule "MP_QSTR_x") =
      .ok (returnPlan "MP_QSTR_x") := rfl
  refine ⟨⟨rfl, _, _, Artifact.generateWith_of_ok bare, Artifact.generateWith_of_ok credited,
      ?_, ?_⟩,
    rfl, _, _, Artifact.generateWith_of_ok plain, Artifact.generateWith_of_ok annotated, ?_, ?_⟩
  · rw [Artifact.table_ofPlan, Listing.mem_table]
    decide +kernel
  · rw [Artifact.table_ofPlan, ModulePlan.mem_table_iff_withoutMetadata _ credited]
    exact .inr (by decide +kernel)
  · rw [Artifact.table_ofPlan, Listing.mem_table]
    decide +kernel
  · rw [Artifact.table_ofPlan, ModulePlan.mem_table_iff_withoutMetadata _ annotated]
    exact .inr (by decide +kernel)

end BindingGen
