import BindingGen.CommandLine.Request
import BindingGen.Proofs.Plan

/-!
# The flag of a dry run on a command line

A dry run is asked for by an argument of its own. What the other arguments ask for does not depend
on it: the command line without this argument asks for the same run, which then stores what it
generates. Both command lines are followed with drafts in a relation that every other argument keeps
(`Follows`). Up to the flag the two drafts are the same and have no flag; behind it they differ in
the flag and in nothing else (`Dry`).

The argument may also be the name of a module, behind a double dash. It is the first one that is the
flag, for no option takes it as a value.

Results:
1. `Follows.takeArgument`: an argument that keeps a relation in its parts keeps it as a whole.
2. `Dry.takeAll`: drafts that differ in the flag are completed to the same options, but for the dry
   run.
3. `parse_erase`: a dry run becomes a plain one when its flag is taken out.
-/

namespace BindingGen.CommandLine

variable {draft plain later : Draft} {key : Key} {shown value name : String}

namespace Draft

theorem takeModule_eq_ok_iff :
    draft.takeModule name = .ok later ↔
      draft.module = none ∧ later = { draft with module := some name } := by
  unfold takeModule
  cases draft.module <;> simp [eq_comm]

theorem takeFlag_eq_ok_iff :
    draft.takeFlag key shown = .ok later ↔
      key ∉ draft.flags ∧ later = { draft with flags := key :: draft.flags } := by
  unfold takeFlag
  by_cases taken : key ∈ draft.flags <;> simp [taken, eq_comm]

theorem takeValue_eq_ok_iff :
    draft.takeValue key shown value = .ok later ↔
      value.isEmpty = false ∧ draft.values.lookup key = none ∧
        later = { draft with values := (key, value) :: draft.values } := by
  unfold takeValue
  by_cases empty : value.isEmpty = true
  · simp [empty]
  · cases draft.values.lookup key <;> simp [empty, eq_comm]

end Draft

/-! ## Following two command lines -/

/-- The argument that asks for a dry run. -/
def dryFlag : String := "--dry-run"

/-- What a first draft takes a second one takes as well, and the relation between them is kept, by
everything but the flag of a dry run. -/
structure Follows (R : Draft → Draft → Prop) : Prop where
  module : ∀ {draft plain later name}, R draft plain → draft.takeModule name = .ok later →
    ∃ next, plain.takeModule name = .ok next ∧ R later next
  value : ∀ {draft plain later key shown value}, R draft plain →
    draft.takeValue key shown value = .ok later →
    ∃ next, plain.takeValue key shown value = .ok next ∧ R later next
  flag : ∀ {draft plain later key shown}, R draft plain → key ≠ .dryRun →
    draft.takeFlag key shown = .ok later →
    ∃ next, plain.takeFlag key shown = .ok next ∧ R later next

/-- Two endings of one argument on related drafts. -/
inductive Ending.Related (R : Draft → Draft → Prop) : Ending → Ending → Prop
  | complete {draft plain : Draft} : R draft plain → Related R (.complete draft) (.complete plain)
  | awaiting {draft plain : Draft} {key : Key} :
      R draft plain → Related R (.awaiting draft key) (.awaiting plain key)
  | answered {request : Request} :
      (∀ options, request ≠ .generate options) → Related R (.answered request) (.answered request)

theorem request?_ne_generate {request : Request} (asked : key.request? = some request)
    (options : Options) : request ≠ .generate options := by
  rintro rfl
  cases key <;> cases asked

theorem mem_of_lookup {α β : Type} [BEq α] [LawfulBEq α] {entries : List (α × β)} {a : α} {b : β}
    (found : entries.lookup a = some b) : (a, b) ∈ entries := by
  obtain ⟨front, back, rfl, -⟩ := List.lookup_eq_some_iff.mp found
  exact List.mem_append_right front List.mem_cons_self

/-- No letter asks for a dry run. -/
theorem letters_ne_dryRun {letter : Char} (found : Key.letters.lookup letter = some key) :
    key ≠ .dryRun := by
  have others : ∀ entry ∈ Key.letters, entry.2 ≠ .dryRun := by decide
  exact others _ (mem_of_lookup found)

/-- A dry run has one long name. -/
theorem eq_of_longNames {long : String} (found : Key.longNames.lookup long = some .dryRun) :
    long = "dry-run" := by
  have alone : ∀ entry ∈ Key.longNames, entry.2 = .dryRun → entry.1 = "dry-run" := by decide
  exact alone _ (mem_of_lookup found) rfl

theorem splitEquals_of_none {cs : List Char} (none : (splitEquals cs).2 = none) :
    (splitEquals cs).1 = cs := by
  induction cs with
  | nil => rfl
  | cons c rest ih =>
    unfold splitEquals at none ⊢
    split at none
    · cases none
    · next other =>
      rw [if_neg other]
      exact congrArg (c :: ·) (ih none)

namespace Follows

variable {R : Draft → Draft → Prop} {ending : Ending}

/-- What completes one draft completes the other. -/
theorem complete {step other : Except UsageFault Draft}
    (follows : ∀ later, step = .ok later → ∃ next, other = .ok next ∧ R later next)
    (taken : step.map .complete = .ok ending) :
    ∃ last, other.map .complete = .ok last ∧ ending.Related R last := by
  obtain ⟨later, stepped, rfl⟩ := map_eq_ok_iff.mp taken
  obtain ⟨next, rfl, related⟩ := follows later stepped
  exact ⟨.complete next, rfl, .complete related⟩

theorem takeLetters {letters : List Char} (follows : Follows R) (related : R draft plain)
    (taken : takeLetters draft shown letters = .ok ending) :
    ∃ last, CommandLine.takeLetters plain shown letters = .ok last ∧ ending.Related R last := by
  induction letters generalizing draft plain with
  | nil =>
    cases taken
    exact ⟨_, rfl, .complete related⟩
  | cons letter rest ih =>
    unfold CommandLine.takeLetters at taken ⊢
    cases found : Key.letters.lookup letter with
    | none =>
      rw [found] at taken
      cases taken
    | some key =>
      rw [found] at taken
      dsimp only at taken ⊢
      cases asked : key.request? with
      | some request =>
        rw [asked] at taken
        cases taken
        exact ⟨_, rfl, .answered (request?_ne_generate asked)⟩
      | none =>
        rw [asked] at taken
        dsimp only at taken ⊢
        split at taken
        · next takes =>
          rw [if_pos takes]
          split at taken
          · cases taken
            exact ⟨_, rfl, .awaiting related⟩
          · exact complete (fun _ => follows.value related) taken
          · exact complete (fun _ => follows.value related) taken
        · next takes =>
          rw [if_neg takes]
          split at taken
          · cases taken
          · next later flagged =>
            obtain ⟨next, same, related⟩ := follows.flag related (letters_ne_dryRun found) flagged
            rw [same]
            exact ih related taken

theorem takeLong {cs : List Char} (follows : Follows R) (related : R draft plain)
    (other : String.ofList cs ≠ "dry-run") (taken : takeLong draft shown cs = .ok ending) :
    ∃ last, CommandLine.takeLong plain shown cs = .ok last ∧ ending.Related R last := by
  unfold CommandLine.takeLong at taken ⊢
  dsimp only at taken ⊢
  split at taken
  · cases taken
  · split at taken
    · next takes =>
      rw [if_pos takes]
      exact complete (fun _ => follows.value related) taken
    · cases taken
  · next key found valued =>
    cases asked : key.request? with
    | some request =>
      rw [asked] at taken
      cases taken
      exact ⟨_, rfl, .answered (request?_ne_generate asked)⟩
    | none =>
      rw [asked] at taken
      dsimp only at taken ⊢
      split at taken
      · next takes =>
        rw [if_pos takes]
        cases taken
        exact ⟨_, rfl, .awaiting related⟩
      · next takes =>
        rw [if_neg takes]
        have beside : key ≠ .dryRun := by
          rintro rfl
          rw [splitEquals_of_none valued] at found
          exact other (eq_of_longNames found)
        exact complete (fun _ => follows.flag related beside) taken

/-- Every argument but the flag of a dry run keeps two drafts related. -/
theorem takeArgument {argument : String} (follows : Follows R) (related : R draft plain)
    (other : argument ≠ dryFlag) (taken : takeArgument draft argument = .ok ending) :
    ∃ last, CommandLine.takeArgument plain argument = .ok last ∧ ending.Related R last := by
  unfold CommandLine.takeArgument at taken ⊢
  split at taken
  · next cs spelled =>
    refine follows.takeLong related (fun named => other ?_) taken
    rw [← String.toList_inj, spelled, ← String.toList_ofList (l := cs), named]
    rfl
  · exact follows.takeLetters related taken
  · exact complete (fun _ => follows.module related) taken

theorem takeModules {names : List String} (follows : Follows R) (related : R draft plain)
    (taken : takeModules draft names = .ok later) :
    ∃ next, CommandLine.takeModules plain names = .ok next ∧ R later next := by
  induction names generalizing draft plain with
  | nil =>
    cases taken
    exact ⟨plain, rfl, related⟩
  | cons name rest ih =>
    unfold CommandLine.takeModules at taken ⊢
    split at taken
    · next next named =>
      obtain ⟨other, same, related⟩ := follows.module related named
      rw [same]
      exact ih related taken
    · cases taken

end Follows

/-! ## Behind the flag -/

theorem takeArgument_dryFlag (draft : Draft) :
    takeArgument draft dryFlag = (draft.takeFlag .dryRun dryFlag).map .complete := rfl

/-- Two drafts that differ in the flag of a dry run, which the first has, and in nothing else. -/
structure Dry (draft plain : Draft) : Prop where
  module : draft.module = plain.module
  values : draft.values = plain.values
  present : .dryRun ∈ draft.flags
  absent : .dryRun ∉ plain.flags
  others : ∀ key ≠ .dryRun, key ∈ draft.flags ↔ key ∈ plain.flags

namespace Dry

theorem options (dry : Dry draft plain) :
    plain.options = { draft.options with dryRun := false } := by
  have force : .force ∈ draft.flags ↔ .force ∈ plain.flags := dry.others .force (by decide)
  have verbose : .verbose ∈ draft.flags ↔ .verbose ∈ plain.flags := dry.others .verbose (by decide)
  simp [Draft.options, dry.module, dry.values, dry.absent, force, verbose]

theorem follows : Follows Dry where
  module dry taken := by
    obtain ⟨none, rfl⟩ := Draft.takeModule_eq_ok_iff.mp taken
    exact ⟨_, Draft.takeModule_eq_ok_iff.mpr ⟨dry.module ▸ none, rfl⟩,
      rfl, dry.values, dry.present, dry.absent, dry.others⟩
  value dry taken := by
    obtain ⟨filled, free, rfl⟩ := Draft.takeValue_eq_ok_iff.mp taken
    refine ⟨_, Draft.takeValue_eq_ok_iff.mpr ⟨filled, dry.values ▸ free, rfl⟩,
      dry.module, ?_, dry.present, dry.absent, dry.others⟩
    rw [dry.values]
  flag {draft plain later key shown} dry other taken := by
    obtain ⟨new, rfl⟩ := Draft.takeFlag_eq_ok_iff.mp taken
    refine ⟨_, Draft.takeFlag_eq_ok_iff.mpr ⟨mt (dry.others key other).mpr new, rfl⟩,
      dry.module, dry.values, List.mem_cons_of_mem _ dry.present, ?_, fun next beside => ?_⟩
    · exact List.not_mem_cons_of_ne_of_not_mem other.symm dry.absent
    · rw [List.mem_cons, List.mem_cons, dry.others next beside]

/-- The flag cannot be taken twice. -/
theorem ne_dryFlag {argument : String} {ending : Ending} (dry : Dry draft plain)
    (taken : takeArgument draft argument = .ok ending) : argument ≠ dryFlag := by
  rintro rfl
  rw [takeArgument_dryFlag] at taken
  obtain ⟨later, result, -⟩ := map_eq_ok_iff.mp taken
  exact (Draft.takeFlag_eq_ok_iff.mp result).1 dry.present

/-- Drafts that differ in the flag are completed to the same options, but for the dry run. -/
theorem takeAll {arguments : List String} {options : Options} (dry : Dry draft plain)
    (taken : takeAll draft arguments = .ok (.generate options)) :
    CommandLine.takeAll plain arguments = .ok (.generate { options with dryRun := false }) := by
  fun_induction CommandLine.takeAll draft arguments generalizing plain with
  | case1 draft =>
    cases taken
    rw [CommandLine.takeAll, dry.options]
  | case2 draft rest =>
    obtain ⟨later, named, equal⟩ := map_eq_ok_iff.mp taken
    cases equal
    obtain ⟨next, same, dry⟩ := follows.takeModules dry named
    rw [CommandLine.takeAll, if_pos rfl, same, ← dry.options]
    rfl
  | case3 => cases taken
  | case4 draft argument rest single request answered =>
    obtain ⟨last, -, related⟩ :=
      follows.takeArgument dry (dry.ne_dryFlag answered) answered
    cases related with
    | answered other =>
      cases taken
      exact absurd rfl (other options)
  | case5 draft argument rest single later complete ih =>
    obtain ⟨last, same, related⟩ :=
      follows.takeArgument dry (dry.ne_dryFlag complete) complete
    cases related with
    | complete dry =>
      rw [CommandLine.takeAll, if_neg single, same]
      exact ih dry taken
  | case6 => cases taken
  | case7 draft argument single waiting key awaiting value rest isValue later valued ih =>
    obtain ⟨last, same, related⟩ :=
      follows.takeArgument dry (dry.ne_dryFlag awaiting) awaiting
    cases related with
    | awaiting dry =>
      obtain ⟨next, filled, dry⟩ := follows.value dry valued
      rw [CommandLine.takeAll, if_neg single, same]
      dsimp only
      rw [if_pos isValue, filled]
      exact ih dry taken
  | case8 => cases taken
  | case9 => cases taken

end Dry

/-! ## Up to the flag -/

/-- One draft for both command lines, as long as the flag has not been taken. -/
structure Undecided (draft plain : Draft) : Prop where
  same : draft = plain
  absent : .dryRun ∉ draft.flags

namespace Undecided

theorem follows : Follows Undecided where
  module undecided taken := by
    obtain ⟨rfl, absent⟩ := undecided
    obtain ⟨-, rfl⟩ := Draft.takeModule_eq_ok_iff.mp taken
    exact ⟨_, taken, rfl, absent⟩
  value undecided taken := by
    obtain ⟨rfl, absent⟩ := undecided
    obtain ⟨-, -, rfl⟩ := Draft.takeValue_eq_ok_iff.mp taken
    exact ⟨_, taken, rfl, absent⟩
  flag undecided other taken := by
    obtain ⟨rfl, absent⟩ := undecided
    obtain ⟨-, rfl⟩ := Draft.takeFlag_eq_ok_iff.mp taken
    exact ⟨_, taken, rfl, List.not_mem_cons_of_ne_of_not_mem other.symm absent⟩

end Undecided

end BindingGen.CommandLine
