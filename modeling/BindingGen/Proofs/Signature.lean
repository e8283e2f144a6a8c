import BindingGen.Signature
import BindingGen.Proofs.ArgOrder
import BindingGen.Proofs.Symbol.Scan
import BindingGen.Proofs.Text.Identifier
import Mathlib.Data.List.TakeWhile

/-!
# Signatures read from left to right

The items of a signature are those of the parameters, in order, with at most one star among them and
the double star behind. The name of a parameter is an identifier, so its item cannot be taken for a
star. A reader takes the parameters before the star for positional ones and those behind it for ones
that are passed by name only, which is how they were declared unless a positional one comes late.

Results:
1. `signatureItems_eq`: the star stands before the first parameter that is passed by name only.
2. `read_items`: what reading the items of a run of parameters adds.
3. `signatureItems_listed`: the items of a signature, and when reading them gives back how each
   parameter is passed.
-/

namespace BindingGen

open Text (isWordChar)

/-! ## Items -/

/-- An item that stands for no parameter. -/
def isMarker (item : String) : Bool := ["*", "*args", "**kwargs"].contains item

/-- The word that an item starts with. -/
def itemName (item : String) : String := String.ofList (item.toList.takeWhile isWordChar)

theorem itemName_of_isMarker {item : String} (marker : isMarker item = true) :
    itemName item = "" := by
  rcases List.mem_cons.mp (List.contains_iff_mem.mp marker) with rfl | member
  · decide +kernel
  · rcases List.mem_pair.mp member with rfl | rfl
    · decide +kernel
    · decide +kernel

namespace Parameter

/-- Whether an item stands for a parameter: it starts with its name and is no marker. -/
structure HasItem (p : Parameter) (item : String) : Prop where
  startsWithName : p.name.toList <+: item.toList
  noMarker : isMarker item = false

/-- Behind the name in an item no word goes on. -/
theorem signatureItem_split (p : Parameter) :
    ∃ rest, p.signatureItem.toList = p.name.toList ++ rest ∧ Symbol.EndsWord rest := by
  unfold signatureItem
  cases p.typeHint with
  | some typeHint =>
    refine ⟨_, by rw [String.toList_append, String.toList_append, List.append_assoc], ?_⟩
    rw [String.toList_append]
    exact Symbol.endsWord_cons (by decide)
  | none =>
    cases p.default with
    | some value =>
      refine ⟨'=' :: value.text.toList, by simp, ?_⟩
      exact Symbol.endsWord_cons (by decide)
    | none => exact ⟨[], by simp, Symbol.endsWord_nil⟩

variable {p : Parameter}

theorem itemName_signatureItem (named : Text.isIdentifier p.name = true) :
    itemName p.signatureItem = p.name := by
  obtain ⟨rest, chars, ends⟩ := p.signatureItem_split
  have words := List.all_eq_true.mp (Text.allWord_of_isIdentifier named)
  unfold itemName
  rw [chars, Symbol.takeWhile_append_of_endsWord words ends, String.ofList_toList]

theorem isMarker_signatureItem (named : Text.isIdentifier p.name = true) :
    isMarker p.signatureItem = false := by
  rw [Bool.eq_false_iff]
  intro marker
  have empty := itemName_of_isMarker marker
  rw [itemName_signatureItem named] at empty
  rw [empty] at named
  cases named

theorem hasItem_signatureItem (named : Text.isIdentifier p.name = true) :
    p.HasItem p.signatureItem := by
  obtain ⟨rest, chars, -⟩ := p.signatureItem_split
  exact ⟨⟨rest, chars.symm⟩, isMarker_signatureItem named⟩

end Parameter

namespace FunctionDecl

/-- The parameters before the first one that is passed by name only. -/
def leading (f : FunctionDecl) : List Parameter := f.params.takeWhile (!·.isKeywordOnly)

/-- The parameters from the first one on that is passed by name only. -/
def trailing (f : FunctionDecl) : List Parameter := f.params.dropWhile (!·.isKeywordOnly)

/-- The star of a signature. It is there if the function takes extra arguments by position or has a
parameter that is passed by name only. -/
def starMarker (f : FunctionDecl) : List String :=
  if f.varargs || f.hasKeywordOnly then [if f.varargs then "*args" else "*"] else []

/-- The double star of a signature. It is there if the function takes extra arguments by name. -/
def doubleStarMarker (f : FunctionDecl) : List String := if f.varkw then ["**kwargs"] else []

theorem starredItems_eq (f : FunctionDecl) (ps : List Parameter) :
    f.starredItems ps =
      (ps.takeWhile (!·.isKeywordOnly)).map (·.signatureItem) ++
        ((if f.varargs || ps.any (·.isKeywordOnly) then [f.star] else []) ++
          (ps.dropWhile (!·.isKeywordOnly)).map (·.signatureItem)) := by
  induction ps with
  | nil => simp [starredItems]
  | cons p ps ih =>
    rw [starredItems]
    split
    · next keywordOnly => simp [keywordOnly]
    · next positional => simp [positional, ih]

/-- The items of a signature, part by part. -/
theorem signatureItems_eq (f : FunctionDecl) :
    f.signatureItems =
      f.leading.map (·.signatureItem) ++
        (f.starMarker ++ (f.trailing.map (·.signatureItem) ++ f.doubleStarMarker)) := by
  rw [signatureItems, starredItems_eq, List.append_assoc, List.append_assoc]
  rfl

theorem leading_append_trailing (f : FunctionDecl) : f.leading ++ f.trailing = f.params :=
  List.takeWhile_append_dropWhile

theorem kind_of_mem_leading {f : FunctionDecl} {p : Parameter} (member : p ∈ f.leading) :
    p.kind = .positional := by
  have positional := List.all_eq_true.mp List.all_takeWhile p member
  cases kind : p.kind with
  | positional => rfl
  | keywordOnly => simp [Parameter.isKeywordOnly, kind] at positional

/-- `f.Lists items`: the items are one for each parameter, in order, and markers. The star stands
before the item of the first parameter that is passed by name only, the double star last. -/
def Lists (f : FunctionDecl) (items : List String) : Prop :=
  ∃ front back, List.Forall₂ Parameter.HasItem f.leading front ∧
    List.Forall₂ Parameter.HasItem f.trailing back ∧
    items = front ++ (f.starMarker ++ (back ++ f.doubleStarMarker))

theorem forall₂_hasItem {ps : List Parameter}
    (named : ∀ p ∈ ps, Text.isIdentifier p.name = true) :
    List.Forall₂ Parameter.HasItem ps (ps.map (·.signatureItem)) := by
  rw [List.forall₂_map_right_iff, List.forall₂_same]
  exact fun p member => Parameter.hasItem_signatureItem (named p member)

theorem filter_isMarker_markers (f : FunctionDecl) :
    f.starMarker.filter isMarker = f.starMarker ∧
      f.doubleStarMarker.filter isMarker = f.doubleStarMarker := by
  unfold starMarker doubleStarMarker
  constructor
  · split
    · split
      · rfl
      · rfl
    · rfl
  · split
    · rfl
    · rfl

/-- The markers among listed items are the star and the double star of the function. -/
theorem Lists.filter_isMarker {f : FunctionDecl} {items : List String} (lists : f.Lists items) :
    items.filter isMarker = f.starMarker ++ f.doubleStarMarker := by
  have none {ps : List Parameter} {part : List String}
      (paired : List.Forall₂ Parameter.HasItem ps part) : part.filter isMarker = [] := by
    induction paired with
    | nil => rfl
    | cons has _ ih => rw [List.filter_cons_of_neg (by simp [has.noMarker]), ih]
  obtain ⟨front, back, before, behind, rfl⟩ := lists
  obtain ⟨star, doubleStar⟩ := f.filter_isMarker_markers
  rw [List.filter_append, List.filter_append, List.filter_append, none before, none behind, star,
    doubleStar, List.nil_append, List.nil_append]

end FunctionDecl

/-! ## Reading -/

/-- What has been read off a signature, and how the parameters from here on are passed. -/
structure Reading where
  passing : Passing
  params : List (String × Passing)
  varargs : Bool
  varkw : Bool
  deriving DecidableEq, Repr

namespace Reading

/-- Before the first item. -/
def start : Reading := ⟨.positional, [], false, false⟩

/-- Reads one item: behind a star the parameters are passed by name only. -/
def step (r : Reading) (item : String) : Reading :=
  if item == "*" then { r with passing := .keywordOnly }
  else if item == "*args" then { r with passing := .keywordOnly, varargs := true }
  else if item == "**kwargs" then { r with varkw := true }
  else { r with params := r.params ++ [(itemName item, r.passing)] }

/-- Reads items from left to right. -/
def read (r : Reading) (items : List String) : Reading := items.foldl step r

theorem read_append (r : Reading) (items others : List String) :
    r.read (items ++ others) = (r.read items).read others := List.foldl_append

/-- An item that is no marker adds a parameter. -/
theorem step_of_not_isMarker (r : Reading) {item : String} (plain : isMarker item = false) :
    r.step item = { r with params := r.params ++ [(itemName item, r.passing)] } := by
  unfold isMarker at plain
  simp only [List.contains_cons, List.contains_nil, Bool.or_false, Bool.or_eq_false_iff] at plain
  obtain ⟨noStar, noArguments, noKeywords⟩ := plain
  unfold step
  rw [noStar, noArguments, noKeywords]
  rfl

/-- The items of parameters add these parameters, all passed the same way. -/
theorem read_items (r : Reading) {ps : List Parameter}
    (named : ∀ p ∈ ps, Text.isIdentifier p.name = true) :
    r.read (ps.map (·.signatureItem)) =
      { r with params := r.params ++ ps.map fun p => (p.name, r.passing) } := by
  induction ps generalizing r with
  | nil => simp [read]
  | cons p ps ih =>
    obtain ⟨first, rest⟩ := List.forall_mem_cons.mp named
    show (r.step p.signatureItem).read (ps.map (·.signatureItem)) = _
    rw [step_of_not_isMarker r (Parameter.isMarker_signatureItem first),
      Parameter.itemName_signatureItem first, ih _ rest, List.append_assoc]
    rfl

theorem read_starMarker (r : Reading) (f : FunctionDecl) :
    r.read f.starMarker =
      { r with
        passing := if f.varargs || f.hasKeywordOnly then .keywordOnly else r.passing
        varargs := r.varargs || f.varargs } := by
  unfold FunctionDecl.starMarker
  cases f.varargs <;> cases f.hasKeywordOnly <;> simp [read, step]

theorem read_doubleStarMarker (r : Reading) (f : FunctionDecl) :
    r.read f.doubleStarMarker = { r with varkw := r.varkw || f.varkw } := by
  unfold FunctionDecl.doubleStarMarker
  cases f.varkw <;> simp [read, step]

/-- What a signature reads as: the parameters before the star as positional ones, those behind it
as passed by name only. -/
theorem read_signatureItems {f : FunctionDecl}
    (named : ∀ p ∈ f.params, Text.isIdentifier p.name = true) :
    (start.read f.signatureItems).varargs = f.varargs ∧
      (start.read f.signatureItems).varkw = f.varkw ∧
      (start.read f.signatureItems).params =
        f.leading.map (fun p => (p.name, .positional)) ++
          f.trailing.map fun p => (p.name, .keywordOnly) := by
  rw [← f.leading_append_trailing] at named
  obtain ⟨before, behind⟩ := List.forall_mem_append.mp named
  rw [f.signatureItems_eq, read_append, read_append, read_append, read_items _ before,
    read_starMarker, read_items _ behind, read_doubleStarMarker]
  refine ⟨rfl, rfl, ?_⟩
  cases anyNamed : f.hasKeywordOnly with
  | true =>
    simp [start]
  | false =>
    have none : f.trailing = [] := by
      unfold FunctionDecl.hasKeywordOnly at anyNamed
      rw [FunctionDecl.trailing, List.dropWhile_eq_nil_iff]
      simpa using anyNamed
    simp [start, none]

end Reading

namespace FunctionDecl

/-- The items between the parentheses of a signature are one for each parameter, in the order of
declaration, and the markers where they belong. Read from left to right they tell whether there are
extra arguments of either kind, and they give back how every parameter is passed if and only if the
positional parameters come first. -/
theorem signatureItems_listed {f : FunctionDecl}
    (named : ∀ p ∈ f.params, Text.isIdentifier p.name = true) :
    f.Lists f.signatureItems ∧
      f.signatureItems.filter isMarker = f.starMarker ++ f.doubleStarMarker ∧
      (Reading.start.read f.signatureItems).varargs = f.varargs ∧
      (Reading.start.read f.signatureItems).varkw = f.varkw ∧
      ((Reading.start.read f.signatureItems).params = f.params.map (fun p => (p.name, p.kind)) ↔
        Leads (fun p => !p.isKeywordOnly) f.params) := by
  have lists : f.Lists f.signatureItems := by
    rw [← f.leading_append_trailing] at named
    obtain ⟨before, behind⟩ := List.forall_mem_append.mp named
    exact ⟨_, _, forall₂_hasItem before, forall₂_hasItem behind, f.signatureItems_eq⟩
  obtain ⟨varargs, varkw, params⟩ := Reading.read_signatureItems named
  refine ⟨lists, lists.filter_isMarker, varargs, varkw, ?_⟩
  have leading : f.leading.map (fun p => (p.name, p.kind)) =
      f.leading.map fun p => (p.name, .positional) :=
    List.map_congr_left fun p member => by rw [kind_of_mem_leading member]
  have inOrder : Leads (fun p => !p.isKeywordOnly) f.params ↔
      ∀ p ∈ f.trailing, (!p.isKeywordOnly) = false := leads_iff_dropWhile
  rw [params, inOrder, ← f.leading_append_trailing, List.map_append, leading,
    List.append_right_inj, List.map_inj_left]
  refine forall₂_congr fun p _ => ?_
  unfold Parameter.isKeywordOnly
  cases p.kind <;> simp

/-- A function with parameters of both kinds and a star that only ends the positional ones. -/
def openFile : FunctionDecl where
  name := "open"
  owner := none
  params := [⟨"path", .positional, none, none⟩, ⟨"mode", .positional, some (.str "r"), none⟩,
    ⟨"buffered", .keywordOnly, some (.bool true), some "bool"⟩]
  varargs := false
  varkw := true
  doc := none
  returns := some "object"

theorem openFile_listed :
    (∀ p ∈ openFile.params, Text.isIdentifier p.name = true) ∧
      openFile.Lists openFile.signatureItems ∧
      openFile.signatureItems.filter isMarker = ["*", "**kwargs"] ∧
      (Reading.start.read openFile.signatureItems).params =
        [("path", .positional), ("mode", .positional), ("buffered", .keywordOnly)] := by
  have named : ∀ p ∈ openFile.params, Text.isIdentifier p.name = true := by decide +kernel
  have inOrder : Leads (fun p => !p.isKeywordOnly) openFile.params := by decide +kernel
  obtain ⟨lists, markers, -, -, recovered⟩ := signatureItems_listed named
  exact ⟨named, lists, markers, recovered.mpr inOrder⟩

end FunctionDecl

end BindingGen
