import ActorSurface.Proofs.Compile.Footprint
import ActorSurface.Proofs.FileSystem.Revealed

/-!
Which contents the files at the paths of a publication can have. A call of the publication leaves every walk as it is,
and the files at some of its paths with contents of a kind (`Contains`): at the target from the beginning on, while a
text is staged beside it (`Contains.append`), and at both paths once the whole text is staged (`Contains.staged`), so
that renaming the one to the other keeps it.
-/

namespace ActorSurface

namespace FileSystem

open Publish (Intent)

/-- What stands at the location of a path is a file with a content of some kind, if anything is there. -/
def HoldsOnly (origin : FileSystem) (path : Bytes) (allowed : Bytes → Prop) (files : FileSystem) : Prop :=
  ∀ location entry, Names origin path location → files.get? location = some entry →
    ∃ mode content, entry = .file mode content ∧ allowed content

namespace HoldsOnly

variable {origin files : FileSystem} {path : Bytes} {allowed : Bytes → Prop} {location : Location}

theorem erase (only : HoldsOnly origin path allowed files) (location : Location) :
    HoldsOnly origin path allowed (files.erase location) := by
  intro place entry names stands
  rw [get?_erase] at stands
  split at stands
  next => cases stands
  next => exact only place entry names stands

theorem put (only : HoldsOnly origin path allowed files) {entry : Entry}
    (fits : Names origin path location → ∃ mode content, entry = .file mode content ∧ allowed content) :
    HoldsOnly origin path allowed (files.put location entry) := by
  intro place found names stands
  rw [get?_put] at stands
  split at stands
  next here =>
    cases stands
    exact fits (here ▸ names)
  next => exact only place found names stands

theorem mapMode (only : HoldsOnly origin path allowed files) {entry : Entry} (stands : files.get? location = some entry)
    (change : Mode → Mode) : HoldsOnly origin path allowed (files.put location (entry.mapMode change)) := by
  refine only.put fun names => ?_
  obtain ⟨mode, content, rfl, holds⟩ := only location entry names stands
  exact ⟨change mode, content, rfl, holds⟩

theorem write (only : HoldsOnly origin path allowed files) (elsewhere : ¬ Names origin path location) (octets : Bytes) :
    HoldsOnly origin path allowed (files.write location octets) := by
  unfold FileSystem.write
  split
  next => exact only.put fun names => absurd names elsewhere
  next => exact only

end HoldsOnly

/-- Paths lead where they led, and those of some paths to files with contents of a kind. -/
structure Contains (origin : FileSystem) (paths : List Bytes) (allowed : Bytes → Prop) (files : FileSystem) : Prop where
  alike : Alike origin files
  only : ∀ path ∈ paths, HoldsOnly origin path allowed files

/-- Where nothing but a file is, there is what can be found of it. -/
theorem contains_refl {files : FileSystem} {path : Bytes} (vacant : Vacant files.revealed path)
    {allowed : Bytes → Prop} (holds : ∀ content, Holds files.revealed path content → allowed content) :
    Contains files [path] allowed files := by
  refine ⟨.refl files, fun listed among location entry names stands => ?_⟩
  obtain rfl := List.mem_singleton.mp among
  have found := names.lookUp stands
  obtain ⟨mode, content, rfl⟩ := vacant location entry found
  exact ⟨mode, content, rfl, holds content ⟨location, mode, found⟩⟩

namespace Contains

variable {origin files after : FileSystem} {target : Bytes} {paths : List Bytes} {allowed : Bytes → Prop}
  {location : Location}

theorem single {path : Bytes} (contains : Contains origin paths allowed files) (listed : path ∈ paths) :
    Contains origin [path] allowed files :=
  ⟨contains.alike, fun same among => contains.only same (List.mem_singleton.mp among ▸ listed)⟩

/-- Neither removing at one of the two paths nor changing a mode changes a content. -/
theorem stable (clear : Unobstructed origin target) (paths : List Bytes) (allowed : Bytes → Prop) :
    Stable target (Contains origin paths allowed) := by
  refine ⟨fun files after path named contains removed => ?_, fun files after readOnly contains changed => ?_⟩
  · refine ⟨clear.unlink contains.alike named removed, fun path listed => ?_⟩
    obtain ⟨directory, name, _, -, -, -, -, rfl⟩ := unlink_eq_ok_iff_resolve.mp removed
    exact (contains.only path listed).erase _
  · refine ⟨contains.alike.trans (alike_changeMode changed), fun path listed => ?_⟩
    obtain ⟨location, entry, found, rfl⟩ := changeMode_eq_ok changed
    obtain ⟨_, -, -, stands, -⟩ := lookUp_eq_ok_iff_resolve.mp found
    exact (contains.only path listed).mapMode stands _

/-- A file that is opened at the temporary path is not the one at the target. -/
theorem create (clear : Unobstructed origin target) (contains : Contains origin [target] allowed files)
    (created : files.create (Intent.ofTarget target).temporary = .ok (location, after)) :
    Contains origin [target] allowed after ∧ ¬ Names origin target location := by
  have elsewhere : ¬ Names origin target location := fun names =>
    clear.create_ne contains.alike created names rfl
  refine ⟨⟨contains.alike.trans (alike_create created), fun path listed => ?_⟩, elsewhere⟩
  obtain rfl := List.mem_singleton.mp listed
  obtain ⟨_, _, _, _, -, -, -, rfl⟩ := resolve_of_create created
  exact (contains.only path listed).put fun names => absurd names elsewhere

theorem append (contains : Contains origin [target] allowed files) (elsewhere : ¬ Names origin target location)
    (octets : Bytes) : Contains origin [target] allowed (files.write location octets) := by
  refine ⟨contains.alike.trans (alike_write files location octets), fun path listed => ?_⟩
  obtain rfl := List.mem_singleton.mp listed
  exact (contains.only path listed).write elsewhere octets

theorem appends (contains : Contains origin [target] allowed files) (elsewhere : ¬ Names origin target location)
    (writes : List Bytes) :
    Contains origin [target] allowed (writes.foldl (fun files octets => files.write location octets) files) := by
  induction writes generalizing files with
  | nil => exact contains
  | cons octets writes ih => exact ih (contains.append elsewhere octets)

/-- Once the whole of a text of the kind is staged, there is nothing else at the two paths. -/
theorem staged (clear : Unobstructed origin target) (contains : Contains origin [target] allowed files)
    {opened : FileSystem} {writes : List Bytes} (whole : allowed writes.flatten)
    (created : files.create (Intent.ofTarget target).temporary = .ok (location, opened)) :
    Contains origin [target, (Intent.ofTarget target).temporary] allowed
      (writes.foldl (fun files octets => files.write location octets) opened) := by
  obtain ⟨containsOpened, elsewhere⟩ := contains.create clear created
  have written := containsOpened.appends elsewhere writes
  refine ⟨written.alike, fun path listed => ?_⟩
  rcases List.mem_cons.mp listed with rfl | others
  · exact written.only path (List.mem_singleton_self path)
  obtain rfl := List.mem_singleton.mp others
  intro place entry names stands
  -- The path is the name of the location at which the file was opened.
  have blocked := (contains.alike.passage place).trans (names.blocked clear.atTemporary)
  obtain rfl := (names.of_alike contains.alike).eq_of_create blocked created
  obtain ⟨_, _, _, mode, -, rfl, -, rfl⟩ := resolve_of_create created
  obtain ⟨-, stood⟩ := writes_content writes ((get?_put files _ _ _).trans (if_pos rfl))
  cases stood.symm.trans stands
  exact ⟨mode, _, rfl, whole⟩

/-- What is renamed to the target was at the temporary path. -/
theorem rename (clear : Unobstructed origin target)
    (contains : Contains origin [target, (Intent.ofTarget target).temporary] allowed files)
    (renamed : files.rename (Intent.ofTarget target).temporary target = .ok after) :
    Contains origin [target, (Intent.ofTarget target).temporary] allowed after := by
  obtain ⟨source, place, entry, namesOld, namesNew, stands, rfl, alike⟩ := clear.rename contains.alike renamed
  refine ⟨alike, fun path listed => ?_⟩
  have fits := contains.only (Intent.ofTarget target).temporary (by simp) source entry namesOld stands
  exact ((contains.only path listed).erase source).put fun _ => fits

/-- What is found at a path is nothing, or a file with a content of the kind. -/
theorem absent_or_holds {path : Bytes} (rooted : Rooted origin) (vacant : Vacant origin.revealed path)
    (contains : Contains origin [path] allowed files) :
    files.revealed.isPresent path = false ∨ ∃ content, allowed content ∧ Holds files.revealed path content := by
  rcases names_or_absent rooted vacant with ⟨location, names⟩ | absent
  · have namesHere := names.of_alike contains.alike
    cases stands : files.get? location with
    | none =>
      left
      rw [namesHere.isPresent, stands]
      rfl
    | some entry =>
      right
      obtain ⟨mode, content, rfl, fits⟩ := contains.only path (List.mem_singleton_self path) location entry names stands
      exact ⟨content, fits, location, mode, namesHere.lookUp stands⟩
  · exact .inl (absent files contains.alike)

end Contains

end FileSystem

end ActorSurface
