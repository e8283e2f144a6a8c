import BindingGen.Layout
import BindingGen.Proofs.Constructor
import BindingGen.Proofs.Text.Identifier

/-!
# Comments and the line that follows them

Before each unit stands the signature of its function as a line comment, with the annotations, the
defaults and the return annotation as the descriptor spells them. The entry point follows on the
next line. A line of C ends at a line feed, at a carriage return or at the two together, and a
backslash before the end joins the next line to it. Only line feeds are taken out of a comment.

Results:
1. `staysOnLine_iff_codeLines`: a text is a line of C by itself, whatever follows it, if and only if
   it has none of these characters in these places.
2. `comments_perm`: the comments of an accepted module are the signatures of its functions and
   methods.
3. `comments_stay_iff`: no comment has a line feed, and all of them stay on their line if and only
   if no annotation or default has a carriage return and no return annotation ends in a backslash.
4. `returnModule_spills`: modules with such a return annotation are accepted.
-/

namespace BindingGen

/-! ## Lines of C -/

namespace Text

/-- The text with every ending of a line written as a line feed. -/
def uniteEndings : List Char → List Char
  | [] => []
  | '\r' :: '\n' :: rest => '\n' :: uniteEndings rest
  | '\r' :: rest => '\n' :: uniteEndings rest
  | c :: rest => c :: uniteEndings rest

/-- The text without the line feeds that a backslash takes back. -/
def spliceLines : List Char → List Char
  | [] => []
  | '\\' :: '\n' :: rest => spliceLines rest
  | c :: rest => c :: spliceLines rest

/-- The lines that a compiler of C reads. -/
def codeLines (cs : List Char) : List (List Char) := (spliceLines (uniteEndings cs)).splitOn '\n'

example : codeLines "// a \\\nb\rc".toList = ["// a b".toList, "c".toList] := by decide +kernel

/-- Nothing in the text ends its line, and nothing at its end joins the next line to it. -/
structure StaysOnLine (line : String) : Prop where
  noLineFeed : '\n' ∉ line.toList
  noReturn : '\r' ∉ line.toList
  noSplice : line.toList.getLast? ≠ some '\\'

theorem uniteEndings_cons {c : Char} (other : c ≠ '\r') (cs : List Char) :
    uniteEndings (c :: cs) = c :: uniteEndings cs := by
  rw [uniteEndings]
  · exact fun _ same _ => other same
  · exact fun same => other same

theorem spliceLines_cons {c : Char} {cs : List Char} (apart : c = '\\' → cs.head? ≠ some '\n') :
    spliceLines (c :: cs) = c :: spliceLines cs := by
  rw [spliceLines]
  rintro _ backslash rfl
  exact apart backslash rfl

theorem uniteEndings_append {cs : List Char} (noReturn : '\r' ∉ cs) (rest : List Char) :
    uniteEndings (cs ++ rest) = cs ++ uniteEndings rest := by
  induction cs with
  | nil => rfl
  | cons c cs ih =>
    obtain ⟨other, noReturn⟩ := List.ne_and_not_mem_of_not_mem_cons noReturn
    rw [List.cons_append, uniteEndings_cons other.symm, ih noReturn, List.cons_append]

theorem return_notMem_uniteEndings (cs : List Char) : '\r' ∉ uniteEndings cs := by
  induction cs using uniteEndings.induct with
  | case1 => exact List.not_mem_nil
  | case2 rest ih =>
    rw [uniteEndings]
    exact List.not_mem_cons_of_ne_of_not_mem (by decide) ih
  | case3 rest alone ih =>
    rw [uniteEndings]
    · exact List.not_mem_cons_of_ne_of_not_mem (by decide) ih
    · exact alone
  | case4 c rest _ other ih =>
    rw [uniteEndings_cons other]
    exact List.not_mem_cons_of_ne_of_not_mem (Ne.symm other) ih

theorem spliceLines_subset (cs : List Char) : spliceLines cs ⊆ cs := by
  induction cs using spliceLines.induct with
  | case1 => exact List.Subset.refl _
  | case2 rest ih =>
    rw [spliceLines]
    exact List.subset_cons_of_subset _ (List.subset_cons_of_subset _ ih)
  | case3 c rest apart ih =>
    rw [spliceLines]
    · exact List.cons_subset_cons c ih
    · exact apart

/-- A line that a backslash does not continue ends where it ends. -/
theorem spliceLines_append_lineFeed {cs : List Char} (noLineFeed : '\n' ∉ cs)
    (noSplice : cs.getLast? ≠ some '\\') (rest : List Char) :
    spliceLines (cs ++ '\n' :: rest) = cs ++ '\n' :: spliceLines rest := by
  have ended : spliceLines ('\n' :: rest) = '\n' :: spliceLines rest :=
    spliceLines_cons fun backslash => absurd backslash (by decide)
  induction cs with
  | nil => exact ended
  | cons c cs ih =>
    obtain ⟨-, noLineFeed⟩ := List.ne_and_not_mem_of_not_mem_cons noLineFeed
    cases cs with
    | nil =>
      have apart : c = '\\' → ('\n' :: rest).head? ≠ some '\n' :=
        fun backslash => absurd (congrArg some backslash) noSplice
      exact (spliceLines_cons apart).trans (congrArg (c :: ·) ended)
    | cons d cs =>
      rw [List.getLast?_cons_cons] at noSplice
      have apart : c = '\\' → (d :: cs ++ '\n' :: rest).head? ≠ some '\n' :=
        fun _ feed => noLineFeed (Option.some.inj feed ▸ List.mem_cons_self)
      exact (spliceLines_cons apart).trans (congrArg (c :: ·) (ih noLineFeed noSplice))

/-- A backslash at the end takes the line feed back. -/
theorem spliceLines_append_backslash {cs : List Char} (noLineFeed : '\n' ∉ cs)
    (rest : List Char) : spliceLines (cs ++ '\\' :: '\n' :: rest) = cs ++ spliceLines rest := by
  induction cs with
  | nil => rw [List.nil_append, spliceLines, List.nil_append]
  | cons c cs ih =>
    obtain ⟨-, noLineFeed⟩ := List.ne_and_not_mem_of_not_mem_cons noLineFeed
    rw [List.cons_append, spliceLines_cons, ih noLineFeed, List.cons_append]
    intro _ feed
    cases cs with
    | nil => cases feed
    | cons d cs => exact noLineFeed (Option.some.inj feed ▸ List.mem_cons_self)

/-- What stays on its line is one line of C, whatever follows, and nothing else is. -/
theorem staysOnLine_iff_codeLines {line : String} :
    StaysOnLine line ↔
      ∀ rest, codeLines (line.toList ++ '\n' :: rest) = line.toList :: codeLines rest := by
  constructor
  · rintro ⟨noLineFeed, noReturn, noSplice⟩ rest
    rw [codeLines, uniteEndings_append noReturn, uniteEndings_cons (by decide),
      spliceLines_append_lineFeed noLineFeed noSplice,
      List.splitOn_append_cons_self_of_not_mem noLineFeed]
    rfl
  · intro read
    have alone : codeLines (line.toList ++ ['\n']) = [line.toList, []] := read []
    -- The lines that are read give back the text that they were split from.
    have spliced :
        spliceLines (uniteEndings (line.toList ++ ['\n'])) = line.toList ++ ['\n'] := by
      refine Eq.trans ?_ (congrArg (List.intercalate ['\n']) alone)
      exact (List.intercalate_splitOn '\n').symm
    have noReturn : '\r' ∉ line.toList := by
      intro member
      refine return_notMem_uniteEndings (line.toList ++ ['\n']) (spliceLines_subset _ ?_)
      rw [spliced]
      exact List.mem_append_left _ member
    have noLineFeed : '\n' ∉ line.toList := by
      intro member
      obtain ⟨before, after, split⟩ := List.append_of_mem member
      rw [codeLines, spliced, split, List.append_assoc, List.cons_append,
        List.splitOn_append_cons_self, List.splitOn_append_cons_self] at alone
      have count := congrArg List.length alone
      have first := List.length_pos_of_ne_nil (List.splitOn_ne_nil '\n' before)
      have second := List.length_pos_of_ne_nil (List.splitOn_ne_nil '\n' after)
      rw [List.length_append, List.length_append, List.splitOn_nil] at count
      simp only [List.length_cons, List.length_nil] at count
      omega
    refine ⟨noLineFeed, noReturn, fun splices => ?_⟩
    obtain ⟨before, split⟩ := List.getLast?_eq_some_iff.mp splices
    rw [uniteEndings_append noReturn, split, List.append_assoc] at spliced
    rw [split] at noLineFeed
    have joined := spliceLines_append_backslash
      (fun member => noLineFeed (List.mem_append_left _ member)) (uniteEndings [])
    have shorter := congrArg List.length (joined.symm.trans spliced)
    simp [uniteEndings, spliceLines] at shorter

end Text

open Text (StaysOnLine)

/-! ## The text of a comment -/

namespace Fragment

/-- Whether a fragment is a line comment. -/
def isComment : Fragment → Bool
  | comment _ => true
  | _ => false

theorem isComment_iff {fragment : Fragment} :
    fragment.isComment = true ↔ ∃ text, fragment = .comment text := by
  cases fragment <;> simp [isComment]

theorem isComment_of_isFrame (fragment : Fragment) (frame : fragment.isFrame = true) :
    fragment.isComment = false := by
  cases fragment with
  | comment => cases frame
  | _ => rfl

theorem isComment_of_isArgument {fragment : Fragment} (argument : fragment.isArgument = true) :
    fragment.isComment = false := by
  cases fragment with
  | comment => cases argument
  | _ => rfl

theorem text_comment (text : String) :
    (comment text).text = "// " ++ lineCommentText text := by
  rw [Fragment.text, lines, List.map_singleton, String.intercalate_singleton, spaces]
  exact String.empty_append

/-- A character as a comment shows it. -/
def shown (c : Char) : Char := if c == '\n' then ' ' else c

theorem shown_eq_iff {c kept : Char} (noBlank : kept ≠ ' ') (noFeed : kept ≠ '\n') :
    shown c = kept ↔ c = kept := by
  unfold shown
  split
  · next feed =>
    refine iff_of_false noBlank.symm fun same => noFeed ?_
    exact same.symm.trans (beq_iff_eq.mp feed)
  · exact Iff.rfl

theorem toList_text_comment (text : String) :
    (comment text).text.toList = "// ".toList ++ text.toList.map shown := by
  rw [text_comment, lineCommentText, String.toList_append]
  exact congrArg ("// ".toList ++ ·) String.toList_ofList

/-- Every layout puts a comment on a line by itself. -/
theorem format_comment (layout : Layout) (text : String) :
    layout.format (comment text) = (comment text).text ++ "\n" := by
  cases layout with
  | dense => rfl
  | indented width =>
    have nonempty : ("// " ++ lineCommentText text).isEmpty = false := by
      rw [String.isEmpty_eq_false_iff, Ne, String.append_eq_empty_iff]
      exact fun empty => absurd empty.1 (by decide)
    rw [Layout.format, lines, List.map_singleton, String.join_cons, String.join_nil,
      Layout.indentedLine, nonempty, if_neg Bool.false_ne_true, text_comment]
    change spaces (0 * width) ++ _ ++ "\n" ++ "" = _
    rw [Nat.zero_mul, spaces, String.append_empty]
    exact congrArg (· ++ "\n") String.empty_append

theorem lineFeed_notMem_comment (text : String) : '\n' ∉ (comment text).text.toList := by
  rw [toList_text_comment, List.mem_append, List.mem_map]
  rintro (opener | ⟨c, -, feed⟩)
  · exact absurd opener (by decide)
  · unfold shown at feed
    split at feed
    · cases feed
    · next other => exact other (beq_iff_eq.mpr feed)

/-- A comment stays on its line unless its text has a carriage return or ends in a backslash. -/
theorem staysOnLine_comment_iff {text : String} :
    StaysOnLine (comment text).text ↔
      '\r' ∉ text.toList ∧ text.toList.getLast? ≠ some '\\' := by
  have returns : '\r' ∈ (comment text).text.toList ↔ '\r' ∈ text.toList := by
    rw [toList_text_comment, List.mem_append, List.mem_map]
    constructor
    · rintro (opener | ⟨c, member, same⟩)
      · exact absurd opener (by decide)
      · exact (shown_eq_iff (by decide) (by decide)).mp same ▸ member
    · exact fun member => .inr ⟨_, member, rfl⟩
  have ends : (comment text).text.toList.getLast? = some '\\' ↔
      text.toList.getLast? = some '\\' := by
    rw [toList_text_comment, List.getLast?_append, List.getLast?_map]
    cases text.toList.getLast? with
    | none => decide
    | some last =>
      rw [Option.map_some, Option.some_or, Option.some.injEq, Option.some.injEq,
        shown_eq_iff (by decide) (by decide)]
  rw [Ne, ← not_congr returns, ← not_congr ends]
  exact ⟨fun stays => ⟨stays.noReturn, stays.noSplice⟩,
    fun plain => ⟨lineFeed_notMem_comment text, plain.1, plain.2⟩⟩

end Fragment

/-! ## Signatures -/

/-- The texts that a signature shows as the descriptor spells them. -/
def Parameter.freeTexts (p : Parameter) : List String :=
  p.typeHint.toList ++ (p.default.map (·.text)).toList

namespace FunctionDecl

/-- The texts that a signature shows as the descriptor spells them. -/
def freeTexts (f : FunctionDecl) : List String :=
  f.params.flatMap (·.freeTexts) ++ f.returns.toList

/-- No free text of the signature has a carriage return, and what ends it does not end in a
backslash. -/
structure FitsComment (f : FunctionDecl) : Prop where
  noReturn : ∀ text ∈ f.freeTexts, '\r' ∉ text.toList
  noSplice : ∀ text ∈ f.returns, text.toList.getLast? ≠ some '\\'

theorem mem_intercalate_iff {c : Char} {separator : String} (apart : c ∉ separator.toList)
    (texts : List String) :
    c ∈ (separator.intercalate texts).toList ↔ ∃ text ∈ texts, c ∈ text.toList := by
  induction texts with
  | nil => simp
  | cons text rest ih =>
    cases rest with
    | nil => simp
    | cons next rest =>
      rw [String.intercalate_cons_cons, String.toList_append, String.toList_append,
        List.mem_append, List.mem_append, ih, List.exists_mem_cons_iff]
      simp [apart]

theorem return_mem_signatureItem_iff {p : Parameter} (named : Text.isIdentifier p.name = true) :
    '\r' ∈ p.signatureItem.toList ↔ ∃ text ∈ p.freeTexts, '\r' ∈ text.toList := by
  have name : '\r' ∉ p.name.toList :=
    Text.not_mem_of_allWord (Text.allWord_of_isIdentifier named) (by decide)
  unfold Parameter.signatureItem Parameter.freeTexts
  cases p.typeHint <;> cases p.default <;> simp [name]

theorem exists_starredItems_iff {f : FunctionDecl} {c : Char} (apart : c ∉ "*args".toList)
    (ps : List Parameter) :
    (∃ item ∈ f.starredItems ps, c ∈ item.toList) ↔ ∃ p ∈ ps, c ∈ p.signatureItem.toList := by
  have star : c ∉ f.star.toList := by
    unfold star
    split
    · exact apart
    · exact fun member => apart (List.mem_cons.mpr (.inl (List.mem_singleton.mp member)))
  induction ps with
  | nil =>
    rw [starredItems]
    split
    · simpa using star
    · simp
  | cons p ps ih =>
    rw [starredItems]
    split
    · simp [star]
    · simp only [List.exists_mem_cons_iff, ih]

theorem return_mem_signature_iff {f : FunctionDecl} (named : f.WellNamed) :
    '\r' ∈ f.signature.toList ↔ ∃ text ∈ f.freeTexts, '\r' ∈ text.toList := by
  have name : '\r' ∉ f.name.toList :=
    Text.not_mem_of_allWord (Text.allWord_of_isIdentifier named.name) (by decide)
  have items : '\r' ∈ (", ".intercalate f.signatureItems).toList ↔
      ∃ text ∈ f.params.flatMap (·.freeTexts), '\r' ∈ text.toList := by
    have extras : ¬ ∃ item ∈ (if f.varkw then ["**kwargs"] else []), '\r' ∈ item.toList := by
      split <;> simp
    have params : (∃ p ∈ f.params, '\r' ∈ p.signatureItem.toList) ↔
        ∃ p ∈ f.params, ∃ text ∈ p.freeTexts, '\r' ∈ text.toList :=
      exists_congr fun p => and_congr_right fun member =>
        return_mem_signatureItem_iff (named.params p member)
    rw [mem_intercalate_iff (by decide), signatureItems]
    simp only [List.mem_append, or_and_right, exists_or, extras, or_false,
      exists_starredItems_iff (by decide : '\r' ∉ "*args".toList), params, List.mem_flatMap]
    constructor
    · rintro ⟨p, member, text, free, found⟩
      exact ⟨text, ⟨p, member, free⟩, found⟩
    · rintro ⟨text, ⟨p, member, free⟩, found⟩
      exact ⟨p, member, text, free, found⟩
  simp only [freeTexts, List.mem_append, or_and_right, exists_or, ← items]
  rw [signature]
  generalize ", ".intercalate f.signatureItems = joined
  cases f.returns <;> simp [name]

/-- A signature ends as its return annotation ends, and without one in a parenthesis. -/
theorem getLast?_signature_iff {f : FunctionDecl} :
    f.signature.toList.getLast? = some '\\' ↔
      ∃ text ∈ f.returns, text.toList.getLast? = some '\\' := by
  rw [signature]
  cases f.returns with
  | none =>
    rw [String.append_empty, String.toList_append, List.getLast?_append]
    simp
  | some returns =>
    have tail : (" -> " ++ returns).toList.getLast? = returns.toList.getLast?.or (some ' ') := by
      rw [String.toList_append, List.getLast?_append]
      rfl
    rw [String.toList_append, List.getLast?_append, tail]
    cases last : returns.toList.getLast? <;> simp [last]

/-- The items between the parentheses are those of the parameters and of the extra arguments. -/
theorem signatureItems_congr {f g : FunctionDecl} (params : f.params = g.params)
    (varargs : f.varargs = g.varargs) (varkw : f.varkw = g.varkw) :
    f.signatureItems = g.signatureItems := by
  have starred (ps : List Parameter) : f.starredItems ps = g.starredItems ps := by
    induction ps with
    | nil => rw [starredItems, starredItems, star, star, varargs]
    | cons p ps ih => rw [starredItems, starredItems, star, star, varargs, ih]
  rw [signatureItems, signatureItems, starred, params, varkw]

/-- A signature does not show the owner. -/
theorem signature_with_owner (f : FunctionDecl) (owner : Option String) :
    ({ f with owner := owner } : FunctionDecl).signature = f.signature := by
  have items : ({ f with owner := owner } : FunctionDecl).signatureItems = f.signatureItems :=
    signatureItems_congr rfl rfl rfl
  rw [signature, signature, items]

/-- A signature stays on its line as a comment if and only if its free texts fit. -/
theorem staysOnLine_signature_iff {f : FunctionDecl} (named : f.WellNamed) :
    StaysOnLine (Fragment.comment f.signature).text ↔ f.FitsComment := by
  rw [Fragment.staysOnLine_comment_iff, return_mem_signature_iff named, Ne,
    getLast?_signature_iff]
  constructor
  · rintro ⟨noReturn, noSplice⟩
    exact ⟨fun text free found => noReturn ⟨text, free, found⟩,
      fun text ends found => noSplice ⟨text, ends, found⟩⟩
  · rintro ⟨noReturn, noSplice⟩
    exact ⟨fun ⟨text, free, found⟩ => noReturn text free found,
      fun ⟨text, ends, found⟩ => noSplice text ends found⟩

end FunctionDecl

/-! ## The comments of a source -/

namespace SourceUnit

/-- The one comment of a unit is the signature of its function. -/
theorem filter_isComment (names : NameScheme) (unit : SourceUnit) :
    (unit.fragments names).filter Fragment.isComment = [.comment unit.plan.decl.signature] := by
  have raws (plan : FunctionPlan) : plan.rawPart.filter Fragment.isComment = [] := by
    rw [List.filter_eq_nil_iff]
    intro fragment member
    obtain ⟨_, _, rfl⟩ := List.mem_map.mp member
    exact Bool.false_ne_true
  cases unit with
  | function plan =>
    have arguments : plan.argumentFragments.filter Fragment.isComment = [] := by
      rw [List.filter_eq_nil_iff]
      intro fragment member
      rw [Fragment.isComment_of_isArgument
        (FunctionPlan.isArgument_of_mem_argumentFragments member)]
      exact Bool.false_ne_true
    have statements : plan.statements.filter Fragment.isComment = [] := by
      unfold FunctionPlan.statements
      split
      · rfl
      · exact raws plan
    rw [fragments, FunctionPlan.unitFragments, List.filter_append, List.filter_append,
      List.filter_append, arguments, statements]
    rfl
  | maker className plan =>
    rw [fragments, FunctionPlan.makerFragments, List.filter_append, List.filter_append, raws]
    rfl

end SourceUnit

namespace ModulePlan

variable {m : ModuleDecl} {plan : ModulePlan}

/-- The comments of an accepted module are the signatures of its functions and methods. -/
theorem comments_perm (names : NameScheme) (accepted : ofValid m = .ok plan) :
    ((plan.listing names).fragments.filter Fragment.isComment).Perm
      (m.callables.map fun f => .comment f.signature) := by
  obtain ⟨valid, planned⟩ := ofValid_eq_ok_iff.mp accepted
  have perm := units_perm planned fun c => ModuleDecl.constructors_le_one_of_validate valid
  have shown : (m.adopt.callables.map fun f => Fragment.comment f.signature) =
      m.callables.map fun f => .comment f.signature := by
    simp only [ModuleDecl.callables, ModuleDecl.adopt, ClassDecl.adopt, List.map_append,
      List.map_flatMap, List.flatMap_map, List.map_map, Function.comp_def,
      FunctionDecl.signature_with_owner]
  have units : (plan.listing names).fragments.filter Fragment.isComment =
      (plan.units.map (·.plan.decl)).map fun f => .comment f.signature := by
    rw [filter_listing Fragment.isComment_of_isFrame, List.map_map]
    simp only [SourceUnit.filter_isComment]
    exact List.map_eq_flatMap.symm
  rw [units, ← shown]
  exact perm.map _

theorem comment_mem_iff (names : NameScheme) (accepted : ofValid m = .ok plan) {text : String} :
    .comment text ∈ (plan.listing names).fragments ↔ ∃ f ∈ m.callables, f.signature = text := by
  have listed : .comment text ∈ (plan.listing names).fragments ↔
      .comment text ∈ (plan.listing names).fragments.filter Fragment.isComment := by
    rw [List.mem_filter]
    exact (and_iff_left rfl).symm
  rw [listed, (comments_perm names accepted).mem_iff, List.mem_map]
  simp only [Fragment.comment.injEq]

/-- The functions and methods of an accepted module are well named. -/
theorem wellNamed_of_callables (accepted : ofValid m = .ok plan) {f : FunctionDecl}
    (member : f ∈ m.callables) : f.WellNamed := by
  have named := ModuleDecl.wellNamed_of_validate (ofValid_eq_ok_iff.mp accepted).1
  rcases List.mem_append.mp member with inModule | inClass
  · exact named.functions f inModule
  · obtain ⟨c, declared, method⟩ := List.mem_flatMap.mp inClass
    have adopted := (named.classes c.adopt (List.mem_map_of_mem declared)).methods _
      (List.mem_map_of_mem method)
    exact ⟨adopted.name, adopted.params, adopted.distinct⟩

/-- The comments of an accepted module are its signatures, without line feeds. They stay on their
lines, so that what follows a comment is read as if it were not there, if and only if the free texts
of every function and method fit. -/
theorem comments_stay_iff (names : NameScheme) (accepted : ofValid m = .ok plan) :
    ((plan.listing names).fragments.filter Fragment.isComment).Perm
      (m.callables.map fun f => .comment f.signature) ∧
    (∀ text, .comment text ∈ (plan.listing names).fragments →
      '\n' ∉ (Fragment.comment text).text.toList) ∧
    ((∀ text, .comment text ∈ (plan.listing names).fragments →
      StaysOnLine (Fragment.comment text).text) ↔ ∀ f ∈ m.callables, f.FitsComment) ∧
    ((∀ f ∈ m.callables, f.FitsComment) →
      ∀ (layout : Layout) (before after : List Fragment) (text : String),
        (plan.listing names).fragments = before ++ .comment text :: after →
          Text.codeLines (layout.render (.comment text :: after)).toList =
            (Fragment.comment text).text.toList ::
              Text.codeLines (layout.render after).toList) := by
  have stay_iff : (∀ text, .comment text ∈ (plan.listing names).fragments →
      StaysOnLine (Fragment.comment text).text) ↔ ∀ f ∈ m.callables, f.FitsComment := by
    simp only [comment_mem_iff names accepted, forall_exists_index, and_imp,
      forall_apply_eq_imp_iff₂]
    exact forall₂_congr fun f member =>
      FunctionDecl.staysOnLine_signature_iff (wellNamed_of_callables accepted member)
  refine ⟨comments_perm names accepted, fun text _ => Fragment.lineFeed_notMem_comment text,
    stay_iff, fun fits layout before after text split => ?_⟩
  have stays := stay_iff.mpr fits text (split ▸ List.mem_append_right _ List.mem_cons_self)
  rw [Layout.render, List.map_cons, String.join_cons, Fragment.format_comment,
    String.toList_append, String.toList_append, List.append_assoc]
  exact Text.staysOnLine_iff_codeLines.mp stays _

end ModulePlan

/-! ## Modules that spill -/

/-- A module with a function of this return annotation. -/
def returnModule (returns : String) : ModuleDecl :=
  ⟨"m", none, none, [⟨"f", none, [], false, false, none, some returns⟩], []⟩

/-- The plan of `returnModule`. -/
def returnPlan (returns : String) : ModulePlan :=
  ⟨returnModule returns,
    [⟨⟨"f", none, [], false, false, none, some returns⟩, .fixed 0, [], []⟩], []⟩

theorem returnModule_stays :
    ModulePlan.ofValid (returnModule "a\\b") = .ok (returnPlan "a\\b") ∧
      ∀ text, .comment text ∈ ((returnPlan "a\\b").listing ⟨"m"⟩).fragments →
        StaysOnLine (Fragment.comment text).text := by
  have accepted : ModulePlan.ofValid (returnModule "a\\b") = .ok (returnPlan "a\\b") := rfl
  refine ⟨accepted, (ModulePlan.comments_stay_iff ⟨"m"⟩ accepted).2.2.1.mpr ?_⟩
  intro f member
  cases List.mem_singleton.mp member
  exact ⟨by decide, by decide⟩

/-- With a carriage return the rest of the signature is code, and with a backslash at the end the
entry point is part of the comment. -/
theorem returnModule_spills :
    (ModulePlan.ofValid (returnModule "a\rb") = .ok (returnPlan "a\rb") ∧
      ¬ ∀ text, .comment text ∈ ((returnPlan "a\rb").listing ⟨"m"⟩).fragments →
        StaysOnLine (Fragment.comment text).text) ∧
    ModulePlan.ofValid (returnModule "\\") = .ok (returnPlan "\\") ∧
      ¬ ∀ text, .comment text ∈ ((returnPlan "\\").listing ⟨"m"⟩).fragments →
        StaysOnLine (Fragment.comment text).text := by
  refine ⟨⟨rfl, fun stays => ?_⟩, rfl, fun stays => ?_⟩
  · exact (stays "def f() -> a\rb" (by decide)).noReturn (by decide)
  · exact (stays "def f() -> \\" (by decide)).noSplice (by decide)

end BindingGen
