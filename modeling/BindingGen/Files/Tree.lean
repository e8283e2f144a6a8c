import BindingGen.Files.Basic

/-!
File trees: the contents of a file system as a value. A tree is a list of addresses with what is
there; an address is the list of names from the root, and the root is always a directory. Paths are
resolved name by name, and every name but the last must be that of a directory.
-/

namespace BindingGen.Files

/-- What may be at an address. -/
inductive Node where
  | file (bytes : ByteArray)
  | directory

/-- The names on the way from the root. -/
abbrev Address := List String

/-- The contents of a file system. -/
structure FileTree where
  entries : List (Address × Node)

namespace FileTree

/-- The tree that is a root and nothing else. -/
def empty : FileTree := ⟨[]⟩

/-- What is at an address. -/
def get? (tree : FileTree) (address : Address) : Option Node :=
  if address = [] then some .directory else tree.entries.lookup address

/-- The tree without what is at an address. -/
def erase (tree : FileTree) (address : Address) : FileTree :=
  ⟨tree.entries.filter fun entry => entry.1 != address⟩

/-- The tree with something at an address. -/
def set (tree : FileTree) (address : Address) (node : Node) : FileTree :=
  ⟨(address, node) :: (tree.erase address).entries⟩

/-- Nothing is left at an address that was erased. -/
theorem get?_erase_self (tree : FileTree) {address : Address} (h : address ≠ []) :
    (tree.erase address).get? address = none := by
  simp only [get?, if_neg h, List.lookup_eq_none_iff]
  intro entry member
  have other : entry.1 ≠ address := by simpa using (List.mem_filter.1 member).2
  simpa using other.symm

/-- Erasing leaves every other address alone. -/
theorem get?_erase_of_ne (tree : FileTree) {address other : Address} (h : other ≠ address) :
    (tree.erase address).get? other = tree.get? other := by
  have lookup_filter (entries : List (Address × Node)) :
      (entries.filter fun entry => entry.1 != address).lookup other = entries.lookup other := by
    induction entries with
    | nil => rfl
    | cons entry rest ih =>
      obtain ⟨place, node⟩ := entry
      by_cases here : place = address
      · have beside : (other == place) = false := by simpa [here] using h
        simp [List.lookup_cons, here ▸ beside, here, ih]
      · cases found : other == place <;> simp [List.lookup_cons, here, found, ih]
  simp only [get?, erase, lookup_filter]

/-- A node stands where it was set. -/
theorem get?_set_self (tree : FileTree) (node : Node) {address : Address} (h : address ≠ []) :
    (tree.set address node).get? address = some node := by
  simp [get?, set, h]

/-- Setting a node leaves every other address alone. -/
theorem get?_set_of_ne (tree : FileTree) (node : Node) {address other : Address}
    (h : other ≠ address) : (tree.set address node).get? other = tree.get? other := by
  rw [← get?_erase_of_ne tree h]
  have beside : (other == address) = false := by simpa using h
  simp [get?, set, List.lookup_cons, beside]

/-- The most bytes that a name may have. -/
def longestName : Nat := 255

/-- The address after a step into a directory. -/
def step (tree : FileTree) (address : Address) (name : String) : Except Fault Address :=
  match tree.get? address with
  | none => .error .notFound
  | some (.file _) => .error .notDirectory
  | some .directory =>
    if name = "" ∨ name = "." then .ok address
    else if name = ".." then .ok address.dropLast
    else if longestName < name.utf8ByteSize then .error .nameTooLong
    else .ok (address ++ [name])

/-- The address that names lead to from an address. The last name need not be there. -/
def walk (tree : FileTree) : Address → List String → Except Fault Address
  | address, [] => .ok address
  | address, name :: names =>
    match tree.step address name with
    | .ok next => tree.walk next names
    | .error fault => .error fault

/-- The address of a path. The empty path is that of the root. -/
def locate (tree : FileTree) (path : Path) : Except Fault Address := tree.walk [] path.segments

/-- What is at a path. -/
def find (tree : FileTree) (path : Path) : Except Fault Node :=
  match tree.locate path with
  | .error fault => .error fault
  | .ok address =>
    match tree.get? address with
    | some node => .ok node
    | none => .error .notFound

/-- Whether anything is at a path. -/
def present (tree : FileTree) (path : Path) : Bool := (tree.find path).isOk

/-- Whether a directory is at a path. -/
def isDirectory (tree : FileTree) (path : Path) : Bool :=
  match tree.find path with
  | .ok .directory => true
  | _ => false

/-- The text of the file at a path. -/
def readText (tree : FileTree) (path : Path) : Except ReadFault String :=
  match tree.find path with
  | .error fault => .error (.refused fault)
  | .ok .directory => .error (.refused .isDirectory)
  | .ok (.file bytes) =>
    match String.fromUTF8? bytes with
    | some text => .ok text
    | none => .error .notText

/-- Whether a segment leaves a path where it is. -/
def isIdle (segment : String) : Bool := segment == "" || segment == "."

/-- The tree with a new directory. The segments are those of its path in reverse. -/
def makeDir (tree : FileTree) (reversed : List String) : Except Fault FileTree :=
  match reversed.dropWhile (· == "") with
  | [] => .error .exists
  | name :: parents =>
    match tree.walk [] (parents.reverse ++ [""]) with
    | .error fault => .error fault
    | .ok parent =>
      if name = "." ∨ name = ".." then .error .exists
      else if longestName < name.utf8ByteSize then .error .nameTooLong
      else if (tree.get? (parent ++ [name])).isSome then .error .exists
      else .ok (tree.set (parent ++ [name]) .directory)

/-- The segments of the path above a path, both in reverse. -/
def above (reversed : List String) : List String := (reversed.dropWhile isIdle).drop 1

theorem length_above_lt {name : String} {names : List String} :
    (above (name :: names)).length < (name :: names).length := by
  have h : ((name :: names).dropWhile isIdle).length ≤ (name :: names).length :=
    (List.dropWhile_suffix isIdle).length_le
  simp only [above, List.length_drop, List.length_cons] at *
  omega

/-- The tree with a directory and the missing ones above it. Directories that were made stay if a
later one cannot be made. -/
def makeDirsFrom (tree : FileTree) : List String → FileTree × Except Fault Unit
  | [] => (tree, .ok ())
  | name :: names =>
    let path : Path := ⟨(name :: names).reverse⟩
    let orPresent (tree : FileTree) (fault : Fault) : FileTree × Except Fault Unit :=
      if tree.isDirectory path then (tree, .ok ()) else (tree, .error fault)
    if path.isEmpty then (tree, .ok ())
    else
      match tree.makeDir (name :: names) with
      | .ok made => (made, .ok ())
      | .error .notFound =>
        match tree.makeDirsFrom (above (name :: names)) with
        | (tree, .error fault) => (tree, .error fault)
        | (tree, .ok ()) =>
          match tree.makeDir (name :: names) with
          | .ok made => (made, .ok ())
          | .error fault => orPresent tree fault
      | .error fault => orPresent tree fault
termination_by names => names.length
decreasing_by exact length_above_lt

/-- The tree with a directory at a path and the missing ones above it. -/
def makeDirs (tree : FileTree) (path : Path) : FileTree × Except Fault Unit :=
  tree.makeDirsFrom path.segments.reverse

/-- The address of a directory. -/
def locateDir (tree : FileTree) (path : Path) : Except Fault Address :=
  tree.walk [] (path.segments ++ [""])

/-- A name for a new file. -/
def stagingName (index : Nat) : String := ".tmp" ++ toString index

/-- A name that a file may have and that nothing in a directory has. -/
def freshName? (tree : FileTree) (dir : Address) : Option String :=
  ((List.range (tree.entries.length + 1)).map stagingName).find? fun name =>
    name.utf8ByteSize ≤ longestName && (tree.get? (dir ++ [name])).isNone

/-- The tree with a new file in a directory, and the file's path. -/
def stage (tree : FileTree) (dir : Path) (text : String) : Except Fault (FileTree × Path) :=
  match tree.locateDir dir with
  | .error fault => .error fault
  | .ok address =>
    match tree.freshName? address with
    | none => .error .exists
    | some name => .ok (tree.set (address ++ [name]) (.file text.toUTF8), dir.join name)

/-- The tree with a file moved to a path. -/
def move (tree : FileTree) (source target : Path) : Except Fault FileTree := do
  let origin ← tree.locate source
  let place ← tree.locate target
  match tree.get? origin, tree.get? place with
  | none, _ => throw .notFound
  | some .directory, _ => throw .isDirectory
  | some (.file _), some .directory => throw .isDirectory
  | some (.file bytes), _ => return (tree.erase origin).set place (.file bytes)

/-- The tree without the file at a path. -/
def remove (tree : FileTree) (path : Path) : Except Fault FileTree := do
  let address ← tree.locate path
  match tree.get? address with
  | none => throw .notFound
  | some .directory => throw .isDirectory
  | some (.file _) => return tree.erase address

/-- A change of a tree that leaves it alone where it is refused. -/
def change {α : Type} (attempt : FileTree → Except Fault (FileTree × α)) :
    StateM FileTree (Except Fault α) := fun tree =>
  match attempt tree with
  | .ok (changed, value) => (.ok value, changed)
  | .error fault => (.error fault, tree)

/-- A tree is a file system in memory. -/
instance : FileSystem (StateM FileTree) where
  readText path := fun tree => (tree.readText path, tree)
  present path := fun tree => (tree.present path, tree)
  makeDirs path := fun tree =>
    match tree.makeDirs path with
    | (changed, result) => (result, changed)
  stage dir text := change fun tree => tree.stage dir text
  move source target := change fun tree => (tree.move source target).map (·, ())
  remove path := change fun tree => (tree.remove path).map (·, ())

end FileTree

end BindingGen.Files
