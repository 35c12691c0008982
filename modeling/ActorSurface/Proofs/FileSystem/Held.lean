import ActorSurface.Proofs.FileSystem.Pair
import ActorSurface.Proofs.FileSystem.Rooted

/-!
Files that are found by their paths (`Holds`), and two paths to names of one directory with files or nothing at
them (`Beside`). What the calls of a privileged process on one of the two make of both is what they make of the two
names (`Pair`).
-/

namespace ActorSurface

namespace FileSystem

/-- A path is the one of a file with some content, links not followed. -/
def Holds (files : FileSystem) (path content : Bytes) : Prop :=
  ∃ location mode, files.lookUp .status path = .ok (location, .file mode content)

/-- Nothing but a file is at a path, links not followed. -/
def Vacant (files : FileSystem) (path : Bytes) : Prop :=
  ∀ location entry, files.lookUp .status path = .ok (location, entry) → ∃ mode content, entry = .file mode content

/-- A path of a file leads to it as to a name, also for calls that remove the name or follow links. -/
theorem Holds.leads {files : FileSystem} (sound : Sound files) {path content : Bytes}
    (holds : Holds files path content) :
    ∃ directory name mode, files.get? (name :: directory) = some (.file mode content) ∧
      ∀ ending : Ending, Leads files ending path (.named directory name false) := by
  obtain ⟨location, mode, found⟩ := holds
  obtain ⟨spot, leads, rfl, stands, fits⟩ := (lookUp_eq_ok_iff sound.privileged).mp found
  cases spot with
  | directory here => exact absurd (leads.directory sound.rooted) (not_enter_of_get? stands rfl)
  | named directory name slash =>
    obtain rfl : slash = false := by simpa [Spot.slash, Entry.isDirectory] using fits
    refine ⟨directory, name, mode, stands, fun ending => leads.unfollowed rfl fun _ body follow => ?_⟩
    cases (passage_eq_follow.mp follow).symm.trans stands

section

variable {files : FileSystem} {path : Bytes} {directory : Location} {name : Name}

theorem Leads.holds (privileged : files.privileged = true)
    (leads : Leads files .status path (.named directory name false)) {mode : Mode} {content : Bytes}
    (stands : files.get? (name :: directory) = some (.file mode content)) : Holds files path content :=
  ⟨_, mode, leads.lookUp privileged stands⟩

end

/-! ### Two names of a directory -/

/-- A file with its mode, or nothing. -/
def offer (file : Option (Mode × Bytes)) : Option Entry :=
  file.map fun (mode, content) => .file mode content

theorem blocked_of_offer {files : FileSystem} {location : Location} {file : Option (Mode × Bytes)}
    (stands : files.get? location = offer file) : files.passage location = .blocked := by
  rw [passage, stands]
  cases file <;> rfl

theorem blocking_offer (file : Option (Mode × Bytes)) : Blocking (offer file) := by
  cases file <;> trivial

/-- Two paths lead to two names of a directory, with files or nothing at them. -/
structure Beside (files : FileSystem) (path beside : Bytes) (directory : Location) (name other : Name)
    (first second : Option (Mode × Bytes)) : Prop where
  privileged : files.privileged = true
  different : other ≠ name
  leads : ∀ ending, Leads files ending path (.named directory name false)
  leadsBeside : ∀ ending, Leads files ending beside (.named directory other false)
  first : files.get? (name :: directory) = offer first
  second : files.get? (other :: directory) = offer second

namespace Beside

variable {files : FileSystem} {path beside : Bytes} {directory : Location} {name other : Name}
  {first second : Option (Mode × Bytes)} {mode : Mode} {content : Bytes}

theorem swap (found : Beside files path beside directory name other first second) :
    Beside files beside path directory other name second first :=
  ⟨found.privileged, found.different.symm, found.leadsBeside, found.leads, found.second, found.first⟩

theorem pair (found : Beside files path beside directory name other first second) :
    Pair files path beside directory name other (offer first) (offer second) files where
  first := found.first
  second := found.second
  others := fun _ _ _ => rfl
  workingDirectory := rfl
  privileged := rfl
  different := found.different
  resolve := fun ending => (resolve_eq_ok_iff found.privileged).mpr (found.leads ending)
  resolveBeside := fun ending => (resolve_eq_ok_iff found.privileged).mpr (found.leadsBeside ending)

/-- For a privileged process, what is made of two files is told by what is made of the two names. -/
theorem of_pair {origin : FileSystem} (privileged : origin.privileged = true)
    (found : Pair origin path beside directory name other (offer first) (offer second) files) :
    Beside files path beside directory name other first second := by
  have isPrivileged : files.privileged = true := found.privileged.trans privileged
  exact ⟨isPrivileged, found.different, fun ending => (resolve_eq_ok_iff isPrivileged).mp (found.resolve ending),
    fun ending => (resolve_eq_ok_iff isPrivileged).mp (found.resolveBeside ending), found.first, found.second⟩

/-- A privileged process may change the directory to which the paths lead. -/
theorem mayChange (found : Beside files path beside directory name other first second) :
    files.mayChange directory = true :=
  mayChange_of_enter found.privileged (found.leads .entry).enter

theorem put (found : Beside files path beside directory name other first second) (mode : Mode) (content : Bytes) :
    Beside (files.put (name :: directory) (.file mode content)) path beside directory name other
      (some (mode, content)) second :=
  .of_pair found.privileged (found.pair.putFile (blocking_offer first) mode content)

theorem holds (found : Beside files path beside directory name other (some (mode, content)) second) :
    Holds files path content :=
  (found.leads .status).holds found.privileged found.first

theorem isPresent (found : Beside files path beside directory name other first second) :
    files.isPresent path = first.isSome := by
  rw [found.pair.isPresent, offer, Option.isSome_map]

theorem write (found : Beside files path beside directory name other (some (mode, content)) second) (octets : Bytes) :
    Beside (files.write (name :: directory) octets) path beside directory name other (some (mode, content ++ octets))
      second :=
  .of_pair found.privileged (found.pair.write rfl octets)

theorem writes (found : Beside files path beside directory name other (some (mode, content)) second)
    (writes : List Bytes) :
    Beside (writes.foldl (fun files octets => files.write (name :: directory) octets) files) path beside directory name
      other (some (mode, content ++ writes.flatten)) second :=
  .of_pair found.privileged (found.pair.writes writes)

theorem changeMode (found : Beside files path beside directory name other (some (mode, content)) second)
    (readOnly : Bool) :
    ∃ after, files.changeMode path (Mode.protect readOnly) = .ok after ∧
      Beside after path beside directory name other (some (Mode.protect readOnly mode, content)) second := by
  obtain ⟨after, changed, left⟩ := found.pair.changeMode rfl readOnly
  exact ⟨after, changed, .of_pair found.privileged left⟩

theorem unlink (found : Beside files path beside directory name other (some (mode, content)) second) :
    ∃ after, files.unlink path = .ok after ∧ Beside after path beside directory name other none second := by
  obtain ⟨after, removed, left⟩ := found.pair.unlink rfl found.mayChange
  exact ⟨after, removed, .of_pair found.privileged left⟩

/-- What is renamed to the other name is there then, in place of what was. -/
theorem rename (found : Beside files path beside directory name other first (some (mode, content))) :
    ∃ after, files.rename beside path = .ok after ∧
      Beside after path beside directory name other (some (mode, content)) none := by
  obtain ⟨after, renamed, left⟩ := found.pair.rename (blocking_offer first) rfl found.mayChange
  exact ⟨after, renamed, .of_pair found.privileged left⟩

end Beside

section

variable {files after : FileSystem} (sound : Sound files) {path more content : Bytes} (unseparated : separator ∉ more)
  (longer : more ≠ []) (held : Holds files path content) (vacant : Vacant files (path ++ more))

include sound unseparated longer held vacant

/-- A file that is opened at the path of another with more behind it is beside the other. -/
theorem create_beside {file : Location} (created : files.create (path ++ more) = .ok (file, after)) :
    ∃ directory name mode stagedMode second, file = (name ++ more) :: directory ∧
      Beside files path (path ++ more) directory name (name ++ more) (some (mode, content)) second ∧
      Beside after path (path ++ more) directory name (name ++ more) (some (mode, content)) (some (stagedMode, [])) := by
  obtain ⟨directory, name, mode, stands, leads⟩ := held.leads sound
  obtain ⟨holder, final, slash, stagedMode, creates, rfl, -, rfl⟩ := create_eq_ok sound.privileged created
  obtain ⟨_, _, left, siblings, descends, arrives⟩ := exists_siblings unseparated (leads .entry) creates
  have status : Leads files .status (path ++ more) (.named directory (name ++ more) false) :=
    (leads_iff_descends siblings.extended).mpr ⟨left, directory, descends,
      .named (leads .entry).enter siblings.plainExtended (by simp [Ending.follows]) (by simp)⟩
  -- Links are not vacant, so that the path ends where the file is.
  obtain ⟨second, there⟩ : ∃ second, files.get? ((name ++ more) :: directory) = offer second := by
    cases occupied : files.get? ((name ++ more) :: directory) with
    | none => exact ⟨none, rfl⟩
    | some entry =>
      obtain ⟨mode, content, rfl⟩ := vacant _ _ (status.lookUp sound.privileged occupied)
      exact ⟨some (mode, content), rfl⟩
  have blocked := blocked_of_offer there
  have found : Beside files path (path ++ more) directory name (name ++ more) (some (mode, content)) second := by
    refine ⟨sound.privileged, fun same => longer (by simpa using same), leads, fun ending => ?_, stands, there⟩
    exact status.unfollowed rfl fun _ body follow => by cases blocked.symm.trans follow
  rcases arrives_last siblings.plainExtended arrives with ⟨same, -⟩ | ⟨body, _, _, follow, -, -⟩
  · cases same
    exact ⟨directory, name, mode, stagedMode, second, rfl, found, (found.swap.put stagedMode []).swap⟩
  · cases blocked.symm.trans follow

/-- A file that is removed at the path of another with more behind it leaves the other. -/
theorem holds_of_unlink_beside (removed : files.unlink (path ++ more) = .ok after) : Holds after path content := by
  obtain ⟨directory, name, mode, stands, leads⟩ := held.leads sound
  obtain ⟨holder, final, entry, removes, there, notDirectory, rfl⟩ := (unlink_eq_ok_iff sound.privileged).mp removed
  obtain ⟨_, _, _, _, _, arrives⟩ := exists_siblings unseparated (leads .entry) removes
  obtain ⟨rfl, rfl⟩ := arrives_entry arrives
  have status : Leads files .status (path ++ more) (.named holder (name ++ more) false) := removes.status rfl
  obtain ⟨_, _, rfl⟩ := vacant _ _ (status.lookUp sound.privileged there)
  have alike : Alike files (files.erase ((name ++ more) :: holder)) := .erase (by rw [passage, there]; rfl)
  have apart : name :: holder ≠ (name ++ more) :: holder := fun same => longer (by simpa using (List.cons.inj same).1)
  have kept : (files.erase ((name ++ more) :: holder)).get? (name :: holder) = some (.file mode content) := by
    rw [get?_erase, if_neg apart, stands]
  exact (alike.leads (leads .status)).holds (alike.privileged.trans sound.privileged) kept

end

end FileSystem

end ActorSurface
