import BindingGen.Proofs.Files.Machine
import BindingGen.Store

/-!
# Files on their way into a directory

Files are first staged under names that nothing in the directory has, and moved into place when all
have been staged. `Staged` says what the directory holds between these two steps, and `Underway`
what it holds while files are being moved: those `placed` have taken the places of what was there,
those `waiting` are still under their staging names, and nothing else differs from the tree before.
The step lemma is `Underway.move`; what is left when no more can be moved is `Underway.withdraw`.

All is said of machines, so operations may also be interrupted.

Results:
1. `runFrom_discardAll`, `runFrom_rollBack`: removing files comes to removing them from the tree.
2. `stageAll_cases`: either all files are staged or the tree is as it was.
3. `placeAll_cases`: either all files are put in place or those that were are removed again.
-/

namespace BindingGen.Store

open Files

/-! ## Removing files -/

section Removing

variable {dir : Path} {place : Address}

/-- Removing files of a directory takes away these and nothing else. -/
theorem get?_foldl_discard {names : List String} {tree : FileTree}
    (located : tree.locateDir dir = .ok place) (distinct : names.Nodup)
    (held : ∀ name ∈ names,
      IsShortName name ∧ ∃ bytes, tree.get? (place ++ [name]) = some (.file bytes))
    (address : Address) :
    ((names.map dir.join).foldl FileTree.discard tree).get? address =
      if address ∈ names.map (place ++ [·]) then none else tree.get? address := by
  induction names generalizing tree with
  | nil => rfl
  | cons name names ih =>
    obtain ⟨single, distinct⟩ := List.nodup_cons.mp distinct
    obtain ⟨⟨short, bytes, file⟩, rest⟩ := List.forall_mem_cons.mp held
    have notDirectory : tree.get? (place ++ [name]) ≠ some .directory := by simp [file]
    have nonempty := FileTree.ne_nil_of_get?_ne notDirectory
    have erased : tree.discard (dir.join name) = tree.erase (place ++ [name]) :=
      FileTree.discard_join located short file
    rw [List.map_cons, List.foldl_cons, erased, ih]
    · rw [FileTree.get?_erase nonempty, List.map_cons]
      by_cases here : address = place ++ [name]
      · simp [here]
      · simp [here]
    · exact FileTree.locateDir_mono (FileTree.keepsDirectories_erase notDirectory) located
    · exact distinct
    · intro other member
      refine ⟨(rest other member).1, ?_⟩
      rw [FileTree.get?_erase nonempty, if_neg]
      · exact (rest other member).2
      · intro same
        have equal : other = name := by simpa using same
        exact single (equal ▸ member)

end Removing

theorem runFrom_discardAll (machine : Machine) (paths : List Path) :
    runFrom machine (discardAll paths) =
      ((), ⟨paths.foldl FileTree.discard machine.tree, machine.ahead⟩) := by
  induction paths generalizing machine with
  | nil => rfl
  | cons path rest ih =>
    rw [discardAll, runFrom_bind]
    exact ih _

theorem runFrom_rollBack (machine : Machine) (paths : List Path) :
    (runFrom machine (rollBack paths)).2 =
      ⟨paths.foldl FileTree.discard machine.tree, machine.ahead⟩ := by
  induction paths generalizing machine with
  | nil => rfl
  | cons path rest ih =>
    rw [rollBack, runFrom_bind, runFrom_bind, runFrom_pure]
    exact ih _

theorem runFrom_presentOf (machine : Machine) (paths : List Path) :
    runFrom machine (presentOf paths) = (paths.filter machine.tree.present, machine) := by
  induction paths with
  | nil => rfl
  | cons path rest ih =>
    have looked : runFrom machine (FileSystem.present path) =
      (machine.tree.present path, machine) := rfl
    rw [presentOf, runFrom_bind, looked, runFrom_bind, ih, runFrom_pure, List.filter_cons]

/-! ## Staging -/

/-- A file on its way into a directory: the name it is to have, its text, and the name it is staged
under. -/
structure Delivery where
  target : String
  text : String
  staged : String

namespace Delivery

/-- The file that is delivered. -/
def file (d : Delivery) : Node := .file d.text.toUTF8

end Delivery

/-- Files were staged in a directory, and nothing else has changed. -/
structure Staged (place : Address) (before after : FileTree) (deliveries : List Delivery) :
    Prop where
  named : ∀ d ∈ deliveries, IsShortName d.staged ∧ ∃ index, d.staged = FileTree.stagingName index
  absent : ∀ d ∈ deliveries, before.get? (place ++ [d.staged]) = none
  held : ∀ d ∈ deliveries, after.get? (place ++ [d.staged]) = some d.file
  distinct : (deliveries.map (·.staged)).Nodup
  others : ∀ address ∉ deliveries.map (place ++ [·.staged]),
    after.get? address = before.get? address

variable {dir : Path} {place : Address} {before after : FileTree}

namespace Staged

theorem keepsDirectories {deliveries : List Delivery}
    (staged : Staged place before after deliveries) : FileTree.KeepsDirectories before after := by
  refine .of_others (List.forall_mem_map.mpr fun d member => ?_) staged.others
  simp [staged.absent d member]

theorem nil : Staged place before before [] := ⟨nofun, nofun, nofun, List.nodup_nil, fun _ _ => rfl⟩

/-- A staged file stays when more are staged, for these take names that are free. -/
theorem cons {d : Delivery} {deliveries : List Delivery} (short : IsShortName d.staged)
    (index : Nat) (staging : d.staged = FileTree.stagingName index)
    (absent : before.get? (place ++ [d.staged]) = none)
    (later : Staged place (before.set (place ++ [d.staged]) d.file) after deliveries) :
    Staged place before after (d :: deliveries) := by
  have nonempty : place ++ [d.staged] ≠ [] := by simp
  have taken : (before.set (place ++ [d.staged]) d.file).get? (place ++ [d.staged]) =
      some d.file := FileTree.get?_set_self _ _ nonempty
  have apart : d.staged ∉ deliveries.map (·.staged) := by
    intro member
    obtain ⟨e, inRest, same⟩ := List.mem_map.mp member
    have free := later.absent e inRest
    rw [same, taken] at free
    cases free
  have apart' : place ++ [d.staged] ∉ deliveries.map (place ++ [·.staged]) := by
    simpa using apart
  constructor
  · exact List.forall_mem_cons.mpr ⟨⟨short, index, staging⟩, later.named⟩
  · refine List.forall_mem_cons.mpr ⟨absent, fun e member => ?_⟩
    rw [← later.absent e member, FileTree.get?_set nonempty, if_neg]
    intro same
    exact apart' (same ▸ List.mem_map_of_mem member)
  · refine List.forall_mem_cons.mpr ⟨?_, later.held⟩
    rw [later.others _ apart', taken]
  · exact List.nodup_cons.mpr ⟨apart, later.distinct⟩
  · intro address outside
    obtain ⟨beside, outside⟩ := not_or.mp (mt List.mem_cons.mpr outside)
    rw [later.others address outside, FileTree.get?_set nonempty, if_neg beside]

end Staged

/-- The result of a computation and the machine after it, without what was told on the way. -/
def outcomeFrom {α : Type} (machine : Machine) (x : StateM Machine (Report α)) : α × Machine :=
  ((runFrom machine x).1.result, (runFrom machine x).2)

section Steps

variable {machine middle later : Machine} {target staged : Path} {text : String}
  {rest : List (Path × String)} {fault : Files.Fault}

theorem stageAll_refused
    (refused : runFrom machine (FileSystem.stage dir text) = (.error fault, later)) :
    outcomeFrom machine (stageAll dir ((target, text) :: rest)) = (.error fault, later) := by
  rw [outcomeFrom, stageAll, runFrom_bind, refused]
  rfl

theorem stageAll_staged {moves : List (Path × Path)}
    (first : runFrom machine (FileSystem.stage dir text) = (.ok staged, middle))
    (others : outcomeFrom middle (stageAll dir rest) = (.ok moves, later)) :
    outcomeFrom machine (stageAll dir ((target, text) :: rest)) =
      (.ok ((target, staged) :: moves), later) := by
  obtain ⟨result, after⟩ := Prod.mk.inj others
  rw [outcomeFrom, stageAll, runFrom_bind, first]
  dsimp only
  rw [runFrom_bind, result, after]
  rfl

theorem stageAll_undone
    (first : runFrom machine (FileSystem.stage dir text) = (.ok staged, middle))
    (others : outcomeFrom middle (stageAll dir rest) = (.error fault, later)) :
    outcomeFrom machine (stageAll dir ((target, text) :: rest)) =
      (.error fault, ⟨later.tree.discard staged, later.ahead⟩) := by
  obtain ⟨result, after⟩ := Prod.mk.inj others
  rw [outcomeFrom, stageAll, runFrom_bind, first]
  dsimp only
  rw [runFrom_bind, result, after]
  dsimp only
  rw [runFrom_bind, runFrom_discardAll]
  rfl

end Steps

/-- The targets of some files in a directory, with their texts. -/
def targetsIn (dir : Path) (files : List (String × String)) : List (Path × String) :=
  files.map fun file => (dir.join file.1, file.2)

/-- Either all files are staged, or none is and the tree is as it was. -/
theorem stageAll_cases (machine : Machine) (located : machine.tree.locateDir dir = .ok place)
    (files : List (String × String)) :
    (∃ deliveries later, deliveries.map (fun d => (d.target, d.text)) = files ∧
      outcomeFrom machine (stageAll dir (targetsIn dir files)) =
        (.ok (deliveries.map fun d => (dir.join d.target, dir.join d.staged)), later) ∧
      (machine.ahead = [] → later.ahead = []) ∧
      Staged place machine.tree later.tree deliveries) ∨
    (∃ fault later, outcomeFrom machine (stageAll dir (targetsIn dir files)) =
        (.error fault, later) ∧
      ∀ address, later.tree.get? address = machine.tree.get? address) := by
  induction files generalizing machine with
  | nil => exact .inl ⟨[], machine, rfl, rfl, id, .nil⟩
  | cons file rest ih =>
    obtain ⟨target, text⟩ := file
    rcases machine.stage_cases dir text with
      ⟨tree, staged, succeeds, equal⟩ | ⟨fault, -, equal⟩
    · obtain ⟨otherPlace, index, found, short, absent, rfl, rfl⟩ := FileTree.of_stage succeeds
      cases located.symm.trans found
      have nonempty : place ++ [FileTree.stagingName index] ≠ [] := by simp
      have new : machine.tree.get? (place ++ [FileTree.stagingName index]) ≠ some .directory := by
        simp [absent]
      have stays := FileTree.locateDir_mono
        (FileTree.keepsDirectories_set new (.file text.toUTF8)) located
      rcases ih ⟨machine.tree.set (place ++ [FileTree.stagingName index]) (.file text.toUTF8),
        machine.ahead.tail⟩ stays with
        ⟨deliveries, later, rfl, result, calm, staged⟩ | ⟨fault, later, result, same⟩
      · exact .inl ⟨⟨target, text, FileTree.stagingName index⟩ :: deliveries, later, rfl,
          stageAll_staged equal result, fun none => calm (by rw [none]; rfl),
          .cons short index rfl absent staged⟩
      · refine .inr ⟨fault, _, stageAll_undone equal result, fun address => ?_⟩
        -- Discarding the staged file brings back the tree before it was staged.
        have held : later.tree.get? (place ++ [FileTree.stagingName index]) =
            some (.file text.toUTF8) := by
          rw [same, FileTree.get?_set_self _ _ nonempty]
        have keeps := FileTree.KeepsDirectories.of_get?_eq same
        rw [FileTree.discard_join (FileTree.locateDir_mono keeps stays) short held,
          FileTree.get?_erase nonempty, same, FileTree.get?_set nonempty]
        split
        · next here => rw [here, absent]
        · rfl
    · exact .inr ⟨fault, _, stageAll_refused equal, fun _ => rfl⟩

/-! ## Moving into place -/

/-- A name of a directory to which no file can be moved: it is too long, or a directory has it. -/
def Blocked (tree : FileTree) (place : Address) (name : String) : Prop :=
  FileTree.longestName < name.utf8ByteSize ∨ tree.get? (place ++ [name]) = some .directory

/-- The names under which files are delivered can be used, and no two are the same. -/
structure Apart (deliveries : List Delivery) : Prop where
  leaving : ∀ d ∈ deliveries, IsShortName d.staged
  entering : ∀ d ∈ deliveries, IsEntryName d.target
  targets : (deliveries.map (·.target)).Nodup
  stagings : (deliveries.map (·.staged)).Nodup
  crossing : ∀ d ∈ deliveries, ∀ e ∈ deliveries, d.target ≠ e.staged

namespace Apart

variable {placed waiting : List Delivery} {d e : Delivery}

theorem target_ne (apart : Apart (placed ++ d :: waiting)) (earlier : e ∈ placed) :
    e.target ≠ d.target := by
  have targets := apart.targets
  rw [List.map_append, List.nodup_append] at targets
  exact targets.2.2 _ (List.mem_map_of_mem earlier) _ List.mem_cons_self

theorem staged_ne (apart : Apart (placed ++ d :: waiting)) (later : e ∈ waiting) :
    e.staged ≠ d.staged := by
  have stagings := apart.stagings
  rw [List.map_append, List.nodup_append, List.map_cons, List.nodup_cons] at stagings
  exact fun same => stagings.2.1.1 (List.mem_map.mpr ⟨e, later, same⟩)

end Apart

/-- Some files are in place and others are waiting; nothing else differs from the tree before. -/
structure Underway (place : Address) (before tree : FileTree) (placed waiting : List Delivery) :
    Prop where
  arrived : ∀ d ∈ placed, tree.get? (place ++ [d.target]) = some d.file
  unblocked : ∀ d ∈ placed, ¬ Blocked before place d.target
  held : ∀ d ∈ waiting, tree.get? (place ++ [d.staged]) = some d.file
  absent : ∀ d ∈ waiting, before.get? (place ++ [d.staged]) = none
  others : ∀ address, address ∉ placed.map (place ++ [·.target]) →
    address ∉ waiting.map (place ++ [·.staged]) → tree.get? address = before.get? address

section Steps

variable {machine middle : Machine} {target staged : Path} {placed : List Path}
  {rest : List (Path × Path)} {fault : Files.Fault}

theorem placeAll_moved
    (moved : runFrom machine (FileSystem.move staged target) = (.ok (), middle)) :
    outcomeFrom machine (placeAll placed ((target, staged) :: rest)) =
      outcomeFrom middle (placeAll (placed ++ [target]) rest) := by
  rw [outcomeFrom, placeAll, runFrom_bind, moved]
  rfl

theorem placeAll_refused
    (refused : runFrom machine (FileSystem.move staged target) = (.error fault, middle)) :
    outcomeFrom machine (placeAll placed ((target, staged) :: rest)) =
      (.error fault,
        ⟨(placed ++ staged :: rest.map Prod.snd).foldl FileTree.discard middle.tree,
          middle.ahead⟩) := by
  rw [outcomeFrom, placeAll, runFrom_bind, refused]
  dsimp only
  rw [runFrom_bind, runFrom_bind, runFrom_rollBack, runFrom_discardAll, List.foldl_append]
  rfl

end Steps

namespace Underway

variable {tree : FileTree} {placed waiting : List Delivery} {d : Delivery}

/-- Moving the first file that waits puts it in place. -/
theorem move (underway : Underway place before tree placed (d :: waiting))
    (apart : Apart (placed ++ d :: waiting)) (unblocked : ¬ Blocked before place d.target) :
    Underway place before
      ((tree.erase (place ++ [d.staged])).set (place ++ [d.target]) d.file) (placed ++ [d])
      waiting := by
  have look (address : Address) :
      ((tree.erase (place ++ [d.staged])).set (place ++ [d.target]) d.file).get? address =
        if address = place ++ [d.target] then some d.file
        else if address = place ++ [d.staged] then none else tree.get? address := by
    rw [FileTree.get?_set (by simp), FileTree.get?_erase (by simp)]
  constructor
  · intro e member
    rw [look]
    rcases List.mem_append.mp member with earlier | last
    · have other := apart.target_ne earlier
      have crossing : e.target ≠ d.staged :=
        apart.crossing e (List.mem_append_left _ earlier) d (by simp)
      rw [if_neg (by simpa using other), if_neg (by simpa using crossing)]
      exact underway.arrived e earlier
    · cases List.mem_singleton.mp last
      rw [if_pos rfl]
  · intro e member
    rcases List.mem_append.mp member with earlier | last
    · exact underway.unblocked e earlier
    · cases List.mem_singleton.mp last
      exact unblocked
  · intro e member
    have other := apart.staged_ne member
    have crossing : e.staged ≠ d.target :=
      (apart.crossing d (by simp) e (by simp [member])).symm
    rw [look, if_neg (by simpa using crossing), if_neg (by simpa using other)]
    exact underway.held e (List.mem_cons_of_mem _ member)
  · exact fun e member => underway.absent e (List.mem_cons_of_mem _ member)
  · intro address beside outside
    simp only [List.map_append, List.map_cons, List.map_nil, List.mem_append,
      List.mem_singleton, not_or] at beside
    rw [look, if_neg beside.2]
    split
    · next left => rw [left, underway.absent d List.mem_cons_self]
    · next elsewhere =>
      refine underway.others address beside.1 ?_
      rw [List.map_cons, List.mem_cons]
      exact not_or.mpr ⟨elsewhere, outside⟩

/-- Removing what is in place and what waits brings back the tree before, without the files whose
places were taken. -/
theorem withdraw (underway : Underway place before tree placed waiting)
    (apart : Apart (placed ++ waiting)) (located : tree.locateDir dir = .ok place)
    (address : Address) :
    (((placed.map (·.target) ++ waiting.map (·.staged)).map dir.join).foldl
        FileTree.discard tree).get? address =
      if address ∈ placed.map (place ++ [·.target]) then none else before.get? address := by
  have targets := List.nodup_append.mp (List.map_append ▸ apart.targets)
  have stagings := List.nodup_append.mp (List.map_append ▸ apart.stagings)
  rw [get?_foldl_discard located]
  · have both : address ∈ (placed.map (·.target) ++ waiting.map (·.staged)).map (place ++ [·]) ↔
        address ∈ placed.map (place ++ [·.target]) ∨
          address ∈ waiting.map (place ++ [·.staged]) := by
      rw [List.map_append, List.mem_append, List.map_map, List.map_map]
      rfl
    by_cases taken : address ∈ placed.map (place ++ [·.target])
    · rw [if_pos (both.mpr (.inl taken)), if_pos taken]
    · rw [if_neg taken]
      by_cases waits : address ∈ waiting.map (place ++ [·.staged])
      · rw [if_pos (both.mpr (.inr waits))]
        obtain ⟨e, member, rfl⟩ := List.mem_map.mp waits
        exact (underway.absent e member).symm
      · rw [if_neg fun found => (both.mp found).elim taken waits]
        exact underway.others address taken waits
  · refine List.nodup_append.mpr ⟨targets.1, stagings.2.1, ?_⟩
    intro target inPlaced staging inWaiting
    obtain ⟨d, placed, rfl⟩ := List.mem_map.mp inPlaced
    obtain ⟨e, waiting, rfl⟩ := List.mem_map.mp inWaiting
    exact apart.crossing d (List.mem_append_left _ placed) e (List.mem_append_right _ waiting)
  · intro name member
    rcases List.mem_append.mp member with inPlaced | inWaiting
    · obtain ⟨d, placed, rfl⟩ := List.mem_map.mp inPlaced
      have entering := apart.entering d (List.mem_append_left _ placed)
      have short := Nat.le_of_not_lt (not_or.mp (underway.unblocked d placed)).1
      exact ⟨⟨entering, short⟩, _, underway.arrived d placed⟩
    · obtain ⟨e, waiting, rfl⟩ := List.mem_map.mp inWaiting
      exact ⟨apart.leaving e (List.mem_append_right _ waiting), _, underway.held e waiting⟩

/-- The place of a file that waits is as it was before. -/
theorem target_eq (underway : Underway place before tree placed (d :: waiting))
    (apart : Apart (placed ++ d :: waiting)) :
    tree.get? (place ++ [d.target]) = before.get? (place ++ [d.target]) := by
  apply underway.others
  · intro taken
    obtain ⟨e, earlier, same⟩ := List.mem_map.mp taken
    exact apart.target_ne earlier (by simpa using same)
  · intro waits
    obtain ⟨e, later, same⟩ := List.mem_map.mp waits
    have crossing : d.target ≠ e.staged :=
      apart.crossing d (by simp) e (List.mem_append_right _ later)
    exact crossing (by simpa using same.symm)

end Underway

/-- Either all files are put in place, or those that were are removed again. -/
theorem placeAll_cases (machine : Machine) (located : machine.tree.locateDir dir = .ok place)
    (placed waiting : List Delivery) (apart : Apart (placed ++ waiting))
    (underway : Underway place before machine.tree placed waiting) :
    (∃ later,
      outcomeFrom machine (placeAll (placed.map (dir.join ·.target))
        (waiting.map fun d => (dir.join d.target, dir.join d.staged))) =
          (.ok ((placed ++ waiting).map (dir.join ·.target)), later) ∧
      later.tree.locateDir dir = .ok place ∧
      Underway place before later.tree (placed ++ waiting) []) ∨
    (∃ fault later done failed rest,
      outcomeFrom machine (placeAll (placed.map (dir.join ·.target))
        (waiting.map fun d => (dir.join d.target, dir.join d.staged))) = (.error fault, later) ∧
      placed ++ waiting = done ++ failed :: rest ∧
      (∀ address, later.tree.get? address =
        if address ∈ done.map (place ++ [·.target]) then none else before.get? address) ∧
      (∀ d ∈ done, ¬ Blocked before place d.target) ∧
      (machine.ahead = [] → Blocked before place failed.target)) := by
  induction waiting generalizing machine placed with
  | nil =>
    rw [List.append_nil]
    exact .inl ⟨machine, rfl, located, underway⟩
  | cons d waiting ih =>
    have leaving := apart.leaving d (by simp)
    have entering := apart.entering d (by simp)
    have held := underway.held d List.mem_cons_self
    have movable (after : FileTree) :
        machine.tree.move (dir.join d.staged) (dir.join d.target) = .ok after ↔ _ :=
      FileTree.move_join_eq_ok_iff located leaving entering held
    rw [underway.target_eq apart] at movable
    rcases machine.move_cases (dir.join d.staged) (dir.join d.target) with
      ⟨tree, moved, equal⟩ | ⟨fault, refused, equal⟩
    · have stays := FileTree.locateDir_mono (FileTree.keepsDirectories_move moved) located
      obtain ⟨short, free, rfl⟩ := (movable tree).mp moved
      have unblocked : ¬ Blocked before place d.target :=
        not_or.mpr ⟨Nat.not_lt_of_le short, free⟩
      have step := ih ⟨_, machine.ahead.tail⟩ stays (placed ++ [d]) (by rwa [List.append_assoc])
        (underway.move apart unblocked)
      rw [List.map_append, List.append_assoc] at step
      rw [List.map_cons, placeAll_moved equal]
      rcases step with
        written | ⟨fault, later, done, failed, rest, result, split, same, free, calm⟩
      · exact .inl written
      · refine .inr ⟨fault, later, done, failed, rest, result, split, same, free, ?_⟩
        intro none
        exact calm (by rw [none]; rfl)
    · refine .inr ⟨fault, _, placed, d, waiting, placeAll_refused equal, rfl, ?_,
        underway.unblocked, ?_⟩
      · intro address
        rw [← underway.withdraw apart located address]
        simp only [List.map_append, List.map_cons, List.map_map, Function.comp_def]
      · intro calm
        by_contra free
        have refused := refused calm
        obtain ⟨short, beside⟩ := not_or.mp free
        rw [(movable _).mpr ⟨Nat.le_of_not_lt short, beside, rfl⟩] at refused
        cases refused

end BindingGen.Store
