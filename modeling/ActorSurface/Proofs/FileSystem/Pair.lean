import ActorSurface.Proofs.FileSystem.Ends

/-!
Two names of one directory, for any process: what stands at them, in a file system that is as its origin everywhere
else (`Replaced`). Where two paths are resolved to them (`Pair`), there is one lemma for what each call on one of the
two answers and leaves, by what stands there and by what the process may do.
-/

namespace ActorSurface

namespace FileSystem

/-- A file system with other entries at two names of a directory, for the same process. -/
structure Replaced (origin : FileSystem) (directory : Location) (name other : Name) (first second : Option Entry)
    (files : FileSystem) : Prop where
  first : files.get? (name :: directory) = first
  second : files.get? (other :: directory) = second
  others : ∀ location, location ≠ name :: directory → location ≠ other :: directory →
    files.get? location = origin.get? location
  workingDirectory : files.workingDirectory = origin.workingDirectory
  privileged : files.privileged = origin.privileged

/-- Two paths are resolved to two names of a directory, and a file system differs from its origin at most at them. -/
structure Pair (origin : FileSystem) (path beside : Bytes) (directory : Location) (name other : Name)
    (first second : Option Entry) (files : FileSystem) : Prop
    extends Replaced origin directory name other first second files where
  different : other ≠ name
  resolve : ∀ ending, files.resolve ending path = .ok (.named directory name false)
  resolveBeside : ∀ ending, files.resolve ending beside = .ok (.named directory other false)

/-- Walks go on from neither a file nor a name where nothing is. -/
def Blocking : Option Entry → Prop
  | none => True
  | some (.file _ _) => True
  | some _ => False

theorem Blocking.not_enter {entry : Option Entry} (blocking : Blocking entry) : Passage.ofEntry entry ≠ .enter := by
  cases entry with
  | none => simp [Passage.ofEntry]
  | some entry =>
    cases entry with
    | file mode content => simp [Passage.ofEntry]
    | directory mode => exact blocking.elim
    | link body => exact blocking.elim

theorem blocking_of_ne {entry : Option Entry} (unlinked : ∀ body, entry ≠ some (.link body))
    (notDirectory : ∀ mode, entry ≠ some (.directory mode)) : Blocking entry := by
  cases entry with
  | none => trivial
  | some entry =>
    cases entry with
    | file mode content => trivial
    | directory mode => exact notDirectory mode rfl
    | link body => exact unlinked body rfl

/-- A file can be opened for writing where nothing is in a directory that the process may change, and where a file is
    that it may write. -/
def Openable (files : FileSystem) (directory : Location) : Option Entry → Prop
  | none => files.mayChange directory = true
  | some (.file mode _) => files.admits Mode.ownerWrite mode = true
  | some _ => False

/-- The mode of a file that is opened for writing: what it was, or that of a new file. -/
def openedMode : Option Entry → Mode
  | some (.file mode _) => mode
  | _ => Mode.newFile

theorem Openable.blocking {files : FileSystem} {directory : Location} {entry : Option Entry}
    (openable : files.Openable directory entry) : Blocking entry := by
  cases entry with
  | none => trivial
  | some entry =>
    cases entry with
    | file mode content => trivial
    | directory mode => exact openable.elim
    | link body => exact openable.elim

/-- Paths are resolved alike in file systems that are seen alike. -/
theorem resolve_of_alike {files after : FileSystem} (alike : Alike files.sight after.sight) {ending : Ending}
    {path : Bytes} {spot : Spot} (resolved : files.resolve ending path = .ok spot) :
    after.resolve ending path = .ok spot :=
  resolve_eq_ok_iff_sight.mpr (alike.leads (resolve_eq_ok_iff_sight.mp resolved))

theorem cons_ne_self {name : Name} {directory : Location} : directory ≠ name :: directory := by
  intro same
  simpa using congrArg List.length same

namespace Pair

variable {origin files after : FileSystem} {path beside : Bytes} {directory location : Location} {name other : Name}
  {first second : Option Entry} (found : Pair origin path beside directory name other first second files)

include found

theorem swap : Pair origin beside path directory other name second first files where
  first := found.second
  second := found.first
  others := fun location notOther notName => found.others location notName notOther
  workingDirectory := found.workingDirectory
  privileged := found.privileged
  different := found.different.symm
  resolve := found.resolveBeside
  resolveBeside := found.resolve

theorem apart : other :: directory ≠ name :: directory :=
  fun same => found.different (List.cons.inj same).1

/-- What the process may do in the directory rests on the directory, which is neither of the two. -/
theorem mayChange : files.mayChange directory = origin.mayChange directory := by
  have same : files.get? directory = origin.get? directory := found.others directory cons_ne_self cons_ne_self
  unfold FileSystem.mayChange
  rw [same]
  cases origin.get? directory with
  | none => rfl
  | some entry =>
    cases entry with
    | directory mode => simp only [admits, found.privileged]
    | file mode content => rfl
    | link body => rfl

theorem put {entry : Entry}
    (alike : Passage.ofEntry (some (entry.sighted files.privileged)) = files.sight.passage (name :: directory)) :
    Pair origin path beside directory name other (some entry) second (files.put (name :: directory) entry) := by
  have seen : Alike files.sight (files.put (name :: directory) entry).sight := by
    rw [sight_put]
    exact .put alike
  refine ⟨⟨?_, ?_, fun location notName notOther => ?_, found.workingDirectory, found.privileged⟩, found.different,
    fun ending => resolve_of_alike seen (found.resolve ending),
    fun ending => resolve_of_alike seen (found.resolveBeside ending)⟩
  · rw [get?_put, if_pos rfl]
  · rw [get?_put, if_neg found.apart, found.second]
  · rw [get?_put, if_neg notName, found.others location notName notOther]

/-- Walks go on from neither a file nor a name where nothing is. -/
theorem blocked (blocking : Blocking first) : files.sight.passage (name :: directory) = .blocked := by
  rw [passage, get?_sight, found.first]
  cases first with
  | none => rfl
  | some entry =>
    cases entry with
    | file mode content => rfl
    | directory mode => exact blocking.elim
    | link body => exact blocking.elim

theorem putFile (blocking : Blocking first) (mode : Mode) (content : Bytes) :
    Pair origin path beside directory name other (some (.file mode content)) second
      (files.put (name :: directory) (.file mode content)) := by
  apply found.put
  rw [found.blocked blocking]
  rfl

theorem erase (blocking : Blocking first) :
    Pair origin path beside directory name other none second (files.erase (name :: directory)) := by
  have seen : Alike files.sight (files.erase (name :: directory)).sight := by
    rw [sight_erase]
    exact .erase (found.blocked blocking)
  refine ⟨⟨?_, ?_, fun location notName notOther => ?_, found.workingDirectory, found.privileged⟩, found.different,
    fun ending => resolve_of_alike seen (found.resolve ending),
    fun ending => resolve_of_alike seen (found.resolveBeside ending)⟩
  · rw [get?_erase, if_pos rfl]
  · rw [get?_erase, if_neg found.apart, found.second]
  · rw [get?_erase, if_neg notName, found.others location notName notOther]

theorem isPresent : files.isPresent path = first.isSome := by
  have looked := lookUp_of_resolve (found.resolve .status)
  cases first with
  | none => simp [FileSystem.isPresent, looked, Spot.location, found.first]
  | some entry => simp [FileSystem.isPresent, looked, Spot.location, Spot.slash, found.first]

/-- A file that is opened for writing is empty, and the other name stays as it is. -/
theorem create (openable : origin.Openable directory first) :
    files.create path = .ok (name :: directory, files.put (name :: directory) (.file (openedMode first) [])) ∧
      Pair origin path beside directory name other (some (.file (openedMode first) [])) second
        (files.put (name :: directory) (.file (openedMode first) [])) := by
  refine ⟨create_eq_ok_iff_resolve.mpr ⟨directory, name, false, _, found.resolve .creation, rfl, ?_, rfl⟩,
    found.putFile openable.blocking _ _⟩
  rw [found.first, found.mayChange]
  cases first with
  | none => exact .inl ⟨rfl, rfl, openable⟩
  | some entry =>
    cases entry with
    | file mode content =>
      refine .inr ⟨content, rfl, ?_⟩
      simpa [Openable, openedMode, admits, found.privileged] using openable
    | directory mode => exact openable.elim
    | link body => exact openable.elim

theorem openable_of_create (created : files.create path = .ok (location, after)) :
    origin.Openable directory first := by
  obtain ⟨holder, final, slash, mode, resolved, rfl, stands, -⟩ := create_eq_ok_iff_resolve.mp created
  cases (found.resolve .creation).symm.trans resolved
  rw [found.first, found.mayChange] at stands
  rcases stands with ⟨rfl, -, allowed⟩ | ⟨content, rfl, allowed⟩
  · exact allowed
  · simpa [Openable, admits, found.privileged] using allowed

/-- What is written to the file at a name stands at its end. -/
theorem write {mode : Mode} {content : Bytes} (stands : first = some (.file mode content)) (octets : Bytes) :
    Pair origin path beside directory name other (some (.file mode (content ++ octets))) second
      (files.write (name :: directory) octets) := by
  subst stands
  have written : files.write (name :: directory) octets =
      files.put (name :: directory) (.file mode (content ++ octets)) := by
    simp only [FileSystem.write, found.first]
    rfl
  rw [written]
  exact found.putFile trivial mode (content ++ octets)

omit found in
theorem writes {mode : Mode} {content : Bytes} (writes : List Bytes) {files : FileSystem}
    (found : Pair origin path beside directory name other (some (.file mode content)) second files) :
    Pair origin path beside directory name other (some (.file mode (content ++ writes.flatten))) second
      (writes.foldl (fun files octets => files.write (name :: directory) octets) files) := by
  induction writes generalizing files content with
  | nil => simpa using found
  | cons octets writes ih => simpa [List.append_assoc] using ih (found.write rfl octets)

/-- The mode of what stands at a name can be changed. -/
theorem changeMode {entry : Entry} (stands : first = some entry) (readOnly : Bool) :
    ∃ after, files.changeMode path (Mode.protect readOnly) = .ok after ∧
      Pair origin path beside directory name other (some (entry.mapMode (Mode.protect readOnly))) second after := by
  have here := found.first.trans stands
  have looked : files.lookUp .content path = .ok (name :: directory, entry) :=
    lookUp_eq_ok_iff_resolve.mpr ⟨_, found.resolve .content, rfl, here, nofun⟩
  refine ⟨_, by simp [FileSystem.changeMode, looked, bind, Except.bind], found.put ?_⟩
  rw [ofEntry_sighted_protect, passage, get?_sight, here]
  rfl

/-- A file is removed where the process may change the directory. -/
theorem unlink {mode : Mode} {content : Bytes} (stands : first = some (.file mode content))
    (allowed : origin.mayChange directory = true) :
    ∃ after, files.unlink path = .ok after ∧ Pair origin path beside directory name other none second after := by
  subst stands
  refine ⟨_, unlink_eq_ok_iff_resolve.mpr ⟨directory, name, _, found.resolve .entry, found.first, ?_, rfl, rfl⟩,
    found.erase trivial⟩
  rw [found.mayChange, allowed]

/-- What is removed is a file or a link, in a directory that the process may change. -/
theorem unlink_eq_ok (removed : files.unlink path = .ok after) :
    origin.mayChange directory = true ∧ ∃ entry, first = some entry ∧ entry.isDirectory = false := by
  obtain ⟨holder, final, entry, resolved, stands, allowed, notDirectory, -⟩ := unlink_eq_ok_iff_resolve.mp removed
  cases (found.resolve .entry).symm.trans resolved
  exact ⟨found.mayChange.symm.trans allowed, entry, found.first.symm.trans stands, notDirectory⟩

/-- A directory is not removed. -/
theorem unlink_directory {mode : Mode} (stands : first = some (.directory mode))
    (allowed : origin.mayChange directory = true) : files.unlink path = .error (.system .isDirectory) := by
  simp [FileSystem.unlink, found.resolve .entry, bind, Except.bind, found.first, stands, found.mayChange, allowed,
    Entry.isDirectory]

/-- A file is moved to a name of the same directory, in place of a file or of nothing, where the process may change the
    directory. -/
theorem rename {mode : Mode} {content : Bytes} (blocking : Blocking first) (stands : second = some (.file mode content))
    (allowed : origin.mayChange directory = true) :
    ∃ after, files.rename beside path = .ok after ∧
      Pair origin path beside directory name other (some (.file mode content)) none after := by
  subst stands
  have moved := (found.swap.erase trivial).swap.putFile blocking mode content
  refine ⟨_, rename_eq_ok_iff_resolve.mpr ⟨directory, other, directory, name, .file mode content,
    found.resolveBeside .entry, found.resolve .entry, found.second, rfl, ?_, ?_, ?_, rfl⟩, moved⟩
  · rw [found.mayChange, allowed]
  · rw [found.mayChange, allowed]
  · rw [passage, found.first]
    exact blocking.not_enter

/-- A file system is its own origin. -/
theorem rebase : Pair files path beside directory name other first second files :=
  ⟨⟨found.first, found.second, fun _ _ _ => rfl, rfl, rfl⟩, found.different, found.resolve, found.resolveBeside⟩

/-- What changing the mode at a path leaves. -/
theorem after_changeMode {change : Mode → Mode} (changed : files.changeMode path change = .ok after) :
    ∃ entry, first = some entry ∧ after = files.put (name :: directory) (entry.mapMode change) := by
  obtain ⟨place, entry, looked, rfl⟩ := changeMode_eq_ok changed
  obtain ⟨spot, resolved, rfl, there, -⟩ := lookUp_eq_ok_iff_resolve.mp looked
  cases (found.resolve .content).symm.trans resolved
  exact ⟨entry, found.first.symm.trans there, rfl⟩

/-- What removing at a path leaves. -/
theorem after_unlink (removed : files.unlink path = .ok after) : after = files.erase (name :: directory) := by
  obtain ⟨holder, final, entry, resolved, -, -, -, rfl⟩ := unlink_eq_ok_iff_resolve.mp removed
  cases (found.resolve .entry).symm.trans resolved
  rfl

/-- What renaming the one to the other leaves. -/
theorem after_rename (moved : files.rename beside path = .ok after) :
    ∃ entry, second = some entry ∧ after = (files.erase (other :: directory)).put (name :: directory) entry := by
  obtain ⟨_, _, _, _, entry, old, new, stands, -, -, -, -, rfl⟩ := rename_eq_ok_iff_resolve.mp moved
  cases (found.resolveBeside .entry).symm.trans old
  cases (found.resolve .entry).symm.trans new
  exact ⟨entry, found.second.symm.trans stands, rfl⟩

theorem mayChange_of_rename (moved : files.rename beside path = .ok after) : origin.mayChange directory = true := by
  obtain ⟨holder, final, _, _, _, resolved, -, -, -, allowed, -⟩ := rename_eq_ok_iff_resolve.mp moved
  cases (found.resolveBeside .entry).symm.trans resolved
  exact found.mayChange.symm.trans allowed

end Pair

end FileSystem

end ActorSurface
