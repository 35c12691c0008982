import ActorSurface.Proofs.FileSystem.Pair
import ActorSurface.Proofs.Publish.Placement

/-!
The name beside a target under which a text is staged. A target that ends in a name of a directory and its temporary
path are resolved to two names of that directory (`EndsIn.pair`), so that it can be told from what stands there, and
from what the process may do, whether a file can be opened at the temporary path (`Creatable`, `EndsIn.create_iff`) and
whether one can be removed that could not be opened (`Shut`, `EndsIn.shut_of_unlink`).
-/

namespace ActorSurface

namespace FileSystem

open Publish (Intent temporarySuffix)

/-- What a staged file is called beside a name. -/
def stagedName (name : Name) : Name :=
  name ++ Utf8.encode temporarySuffix

/-- A path that ends in a name of a directory is resolved to it: both are short enough, and the process may search the
    directory. -/
structure Resolvable (files : FileSystem) (path : Bytes) (directory : Location) (name : Name) : Prop where
  shortPath : path.length ≤ longestPath
  shortName : name.length ≤ longestName
  searched : files.sight.passage directory = .enter

/-- A file can be opened for writing at a path that ends in a name of a directory. -/
structure Creatable (files : FileSystem) (path : Bytes) (directory : Location) (name : Name) : Prop
    extends Resolvable files path directory name where
  openable : files.Openable directory (files.get? (name :: directory))

/-- A file at a path that ends in a name of a directory is one that the process may remove but not write. -/
structure Shut (files : FileSystem) (path : Bytes) (directory : Location) (name : Name) : Prop
    extends Resolvable files path directory name where
  allowed : files.mayChange directory = true
  unwritable : ∃ mode content, files.get? (name :: directory) = some (.file mode content) ∧
    files.admits Mode.ownerWrite mode = false

/-- A privileged process may write every file. -/
theorem not_shut {files : FileSystem} {path : Bytes} {directory : Location} {name : Name}
    (privileged : files.privileged = true) : ¬ Shut files path directory name := by
  intro shut
  obtain ⟨mode, content, -, unwritable⟩ := shut.unwritable
  cases unwritable.symm.trans (admits_of_privileged privileged Mode.ownerWrite mode)

theorem search_of_change (mode : Mode) (changes : mode &&& Mode.ownerChange = Mode.ownerChange) :
    mode &&& Mode.ownerSearch = Mode.ownerSearch := by
  revert mode
  decide +kernel

/-- A directory that a process may change is one that it may search. -/
theorem searched_of_mayChange {files : FileSystem} {directory : Location} (allowed : files.mayChange directory = true) :
    files.sight.passage directory = .enter := by
  unfold mayChange at allowed
  rw [passage, get?_sight]
  cases stands : files.get? directory with
  | none => simp [stands] at allowed
  | some entry =>
    rw [stands] at allowed
    cases entry with
    | file mode content => cases allowed
    | link body => cases allowed
    | directory mode =>
      have search : searches files.privileged mode = true := by
        rcases Bool.or_eq_true_iff.mp allowed with privileged | changes
        · simp [searches, privileged]
        · simp [searches, search_of_change mode (eq_of_beq changes)]
      simp [Entry.sighted, search, Passage.ofEntry]

theorem stagedName_ne_dots (name : Name) : stagedName name ≠ dot ∧ stagedName name ≠ dotDot := by
  have length : (stagedName name).length = name.length + 4 := List.length_append
  constructor
  · intro same
    simp [same, dot] at length
  · intro same
    simp [same, dotDot] at length

section

variable {files : FileSystem} {target : Bytes} {directory : Location} {name : Name}
  (ends : EndsIn files target directory name)
  (unlinked : ∀ body, files.get? (name :: directory) ≠ some (.link body))
  (unlinkedBeside : ∀ body, files.get? (stagedName name :: directory) ≠ some (.link body))

include ends unlinked unlinkedBeside

/-- The target and the temporary path are resolved to the name and the one beside it, if the longer of both is. -/
theorem EndsIn.pair (resolvable : Resolvable files (Intent.ofTarget target).temporary directory (stagedName name)) :
    Pair files target (Intent.ofTarget target).temporary directory name (stagedName name)
      (files.get? (name :: directory)) (files.get? (stagedName name :: directory)) files := by
  obtain ⟨shortPath, shortName, searched⟩ := resolvable
  -- What is asked of the staged name and its path holds of the shorter ones too.
  have length : (stagedName name).length = name.length + 4 := List.length_append
  have lengthPath : (Intent.ofTarget target).temporary.length = target.length + 4 := List.length_append
  refine ⟨⟨rfl, rfl, fun _ _ _ => rfl, rfl, rfl⟩, extended_ne name, fun ending => ?_, fun ending => ?_⟩
  · have plain : Plain (name ++ []) := by
      rw [List.append_nil]
      exact ⟨ends.ordinary.notDot, ends.ordinary.notDotDot, by omega⟩
    have short : (target ++ []).length ≤ longestPath := by
      rw [List.append_nil]
      omega
    simpa using ends.resolve_append (by simp) (by simp) plain short searched (by simpa using unlinked) ending
  · have dots := stagedName_ne_dots name
    exact ends.resolve_append suffix_unseparated (by decide) ⟨dots.1, dots.2, shortName⟩ shortPath searched
      unlinkedBeside ending

omit unlinked unlinkedBeside in
/-- What the temporary path is resolved to, if to anything, it is for these reasons. -/
theorem EndsIn.resolvable {ending : Ending} {spot : Spot}
    (resolved : files.resolve ending (Intent.ofTarget target).temporary = .ok spot) :
    Resolvable files (Intent.ofTarget target).temporary directory (stagedName name) := by
  have dots := stagedName_ne_dots name
  obtain ⟨⟨-, -, shortName⟩, shortPath, searched⟩ := ends.resolved suffix_unseparated dots.1 dots.2 resolved
  exact ⟨shortPath, shortName, searched⟩

/-- The temporary path can be opened for writing just for these reasons. -/
theorem EndsIn.create_iff :
    (∃ opened, files.create (Intent.ofTarget target).temporary = .ok opened) ↔
      Creatable files (Intent.ofTarget target).temporary directory (stagedName name) := by
  constructor
  · rintro ⟨⟨location, after⟩, created⟩
    obtain ⟨_, _, _, _, resolved, -⟩ := create_eq_ok_iff_resolve.mp created
    have resolvable := ends.resolvable resolved
    exact ⟨resolvable, (ends.pair unlinked unlinkedBeside resolvable).swap.openable_of_create created⟩
  · intro creatable
    have found := ends.pair unlinked unlinkedBeside creatable.toResolvable
    exact ⟨_, (found.swap.create creatable.openable).1⟩

/-- A file that the process may remove but not write is removed. -/
theorem EndsIn.unlink_of_shut (shut : Shut files (Intent.ofTarget target).temporary directory (stagedName name)) :
    ∃ after, files.unlink (Intent.ofTarget target).temporary = .ok after ∧
      Replaced files directory name (stagedName name) (files.get? (name :: directory)) none after := by
  have found := ends.pair unlinked unlinkedBeside shut.toResolvable
  obtain ⟨mode, content, stands, -⟩ := shut.unwritable
  obtain ⟨after, removed, replaced⟩ := found.swap.unlink stands shut.allowed
  exact ⟨after, removed, replaced.swap.toReplaced⟩

/-- Where no file can be opened, what can be removed is such a file. -/
theorem EndsIn.shut_of_unlink {after : FileSystem}
    (uncreatable : ¬ Creatable files (Intent.ofTarget target).temporary directory (stagedName name))
    (removed : files.unlink (Intent.ofTarget target).temporary = .ok after) :
    Shut files (Intent.ofTarget target).temporary directory (stagedName name) := by
  obtain ⟨_, _, _, resolved, -⟩ := unlink_eq_ok_iff_resolve.mp removed
  have resolvable := ends.resolvable resolved
  have found := ends.pair unlinked unlinkedBeside resolvable
  obtain ⟨allowed, entry, stands, notDirectory⟩ := found.swap.unlink_eq_ok removed
  refine ⟨resolvable, allowed, ?_⟩
  cases entry with
  | directory mode => cases notDirectory
  | link body => exact absurd stands (unlinkedBeside body)
  | file mode content =>
    refine ⟨mode, content, stands, ?_⟩
    rw [← Bool.not_eq_true]
    intro writable
    exact uncreatable ⟨resolvable, by rw [stands]; exact writable⟩

omit unlinked in
/-- For a privileged process, what opening a file takes is that both are short enough and no directory is there. -/
theorem EndsIn.creatable_iff_of_privileged (privileged : files.privileged = true) :
    Creatable files (Intent.ofTarget target).temporary directory (stagedName name) ↔
      (Intent.ofTarget target).temporary.length ≤ longestPath ∧ (stagedName name).length ≤ longestName ∧
        ∀ mode, files.get? (stagedName name :: directory) ≠ some (.directory mode) := by
  constructor
  · rintro ⟨⟨shortPath, shortName, -⟩, openable⟩
    refine ⟨shortPath, shortName, fun mode stands => ?_⟩
    rw [stands] at openable
    exact openable
  · rintro ⟨shortPath, shortName, notDirectory⟩
    refine ⟨⟨shortPath, shortName, searched_of_mayChange (ends.mayChange privileged)⟩, ?_⟩
    cases stands : files.get? (stagedName name :: directory) with
    | none => exact ends.mayChange privileged
    | some entry =>
      cases entry with
      | file mode content => exact admits_of_privileged privileged ..
      | directory mode => exact notDirectory mode stands
      | link body => exact unlinkedBeside body stands

end

end FileSystem

end ActorSurface
