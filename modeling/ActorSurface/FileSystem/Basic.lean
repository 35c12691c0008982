import ActorSurface.FileSystem.Path

/-!
The state of a file system: which entry stands at which location. Locations are independent of links and
of the way a path reaches them; `get?` is the view through which every change is described
(`get?_put`, `get?_erase`). There are no hard links, so the content of a file belongs to its entry.
-/

namespace ActorSurface

namespace FileSystem

/-- The permission bits of an entry: read, write and execute, for owner, group and others. -/
abbrev Mode := BitVec 9

namespace Mode

/-- The owner's right to read. -/
def ownerRead : Mode := 0o400

/-- The owner's right to write. -/
def ownerWrite : Mode := 0o200

/-- The owner's right to pass through a directory. -/
def ownerSearch : Mode := 0o100

/-- The rights that changing a directory asks for. -/
def ownerChange : Mode := 0o300

/-- Every right to write. -/
def allWrite : Mode := 0o222

/-- What a new file gets. -/
def newFile : Mode := 0o644

/-- What a new directory gets. -/
def newDirectory : Mode := 0o755

/-- A mode with no right to write left in it, or with the owner's right to write. -/
def protect (readOnly : Bool) (mode : Mode) : Mode :=
  if readOnly then mode &&& ~~~allWrite else mode ||| ownerWrite

end Mode

/-- What can stand at a location. -/
inductive Entry where
  | file (mode : Mode) (content : Bytes)
  | directory (mode : Mode)
  | link (body : Bytes)
  deriving DecidableEq, Repr

namespace Entry

/-- Whether an entry is a directory. -/
def isDirectory : Entry → Bool
  | .directory _ => true
  | _ => false

/-- The entry with another mode. Links have none. -/
def mapMode (change : Mode → Mode) : Entry → Entry
  | .file mode content => .file (change mode) content
  | .directory mode => .directory (change mode)
  | .link body => .link body

/-- The file with bytes added at its end. -/
def append (octets : Bytes) : Entry → Entry
  | .file mode content => .file mode (content ++ octets)
  | entry => entry

end Entry

/-- A place in the tree of directories: the names that lead to it from the root, the last one first. -/
abbrev Location := List Name

/-- The directory above a location. The root is above itself. -/
def Location.above (location : Location) : Location :=
  location.tail

end FileSystem

/-- A file system as one process sees it: the entries, the directory from which relative paths start, and
    whether the process passes every permission check. It owns every entry. -/
structure FileSystem where
  entries : List (FileSystem.Location × FileSystem.Entry)
  workingDirectory : FileSystem.Location
  privileged : Bool
  deriving Repr

namespace FileSystem

/-- A file system with the root and a working directory directly below it, both of them empty otherwise. -/
def empty (workingDirectory : Name) (privileged : Bool) : FileSystem :=
  ⟨[([], .directory Mode.newDirectory), ([workingDirectory], .directory Mode.newDirectory)],
    [workingDirectory], privileged⟩

/-- The entry at a location. -/
def get? (files : FileSystem) (location : Location) : Option Entry :=
  files.entries.lookup location

/-- Puts an entry at a location, in place of the one that stands there. -/
def put (files : FileSystem) (location : Location) (entry : Entry) : FileSystem :=
  { files with entries := (location, entry) :: files.entries.filter (·.1 ≠ location) }

/-- Takes the entry at a location away. -/
def erase (files : FileSystem) (location : Location) : FileSystem :=
  { files with entries := files.entries.filter (·.1 ≠ location) }

/-- Whether the process may do to an entry of some mode what needs the given rights. -/
def admits (files : FileSystem) (needed mode : Mode) : Bool :=
  files.privileged || mode &&& needed == needed

/-- Whether the process may add and remove names in a directory. -/
def mayChange (files : FileSystem) (directory : Location) : Bool :=
  match files.get? directory with
  | some (.directory mode) => files.admits Mode.ownerChange mode
  | _ => false

theorem lookup_filter_ne (entries : List (Location × Entry)) (location other : Location) :
    (entries.filter (·.1 ≠ location)).lookup other =
      if other = location then none else entries.lookup other := by
  induction entries with
  | nil => simp
  | cons head entries ih =>
    obtain ⟨place, entry⟩ := head
    by_cases here : place = location
    · subst here
      rw [List.filter_cons_of_neg (by simp), ih]
      split
      · rfl
      · rename_i different
        rw [List.lookup_cons, beq_eq_false_iff_ne.mpr different]
    · rw [List.filter_cons_of_pos (by simpa using here), List.lookup_cons, List.lookup_cons, ih]
      by_cases same : other = place
      · subst same
        simp [here]
      · rw [beq_eq_false_iff_ne.mpr same]

@[simp]
theorem get?_erase (files : FileSystem) (location other : Location) :
    (files.erase location).get? other = if other = location then none else files.get? other :=
  lookup_filter_ne files.entries location other

@[simp]
theorem get?_put (files : FileSystem) (location other : Location) (entry : Entry) :
    (files.put location entry).get? other = if other = location then some entry else files.get? other := by
  unfold get? put
  rw [List.lookup_cons, lookup_filter_ne]
  by_cases same : other = location
  · simp [same]
  · rw [beq_eq_false_iff_ne.mpr same, if_neg same, if_neg same]

/-! ### Listing -/

/-- The byte order of names. -/
def Name.le : Name → Name → Bool
  | [], _ => true
  | _ :: _, [] => false
  | octet :: name, other :: rest => octet < other || (octet == other && Name.le name rest)

/-- The order of locations below one directory, given by the names that lead to them: each directory before
    what it holds, and names in byte order. -/
def leads : List Name → List Name → Bool
  | [], _ => true
  | _ :: _, [] => false
  | name :: names, other :: rest => if name = other then leads names rest else name.le other

/-- The names that lead from a directory down to a location below it. -/
def below? (directory location : Location) : Option (List Name) :=
  if directory <:+ location ∧ location ≠ directory then
    some (location.take (location.length - directory.length)).reverse
  else none

/-- What stands below the working directory, by the names that lead there, in order. -/
def listing (files : FileSystem) : List (List Name × Entry) :=
  (files.entries.filterMap fun (location, entry) =>
      (below? files.workingDirectory location).map fun names => (names, entry)).mergeSort
    fun one other => leads one.1 other.1

end FileSystem

end ActorSurface
