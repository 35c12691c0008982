import ActorSurface.Proofs.FileSystem.Concern
import ActorSurface.Proofs.FileSystem.Updates
import ActorSurface.Proofs.Publish.Specification

/-!
Publishing a text again. A publication that goes through, with nothing at the temporary path before it, ends in one
state of the two names, whatever was at the target: a new file with the text that nobody may write, and nothing beside
it (`Carried.pair`). From there the same publication goes through, and leads back to that state (`publish_again`).
-/

namespace ActorSurface

namespace FileSystem

open Publish (Intent temporarySuffix)

/-- The mode of a published file that is new. -/
theorem protect_newFile : Mode.protect true Mode.newFile = 0o444 := by decide

section

variable {files : FileSystem} {target : Bytes}

/-- What is opened at a temporary path at which there was nothing is a new file of its name. -/
theorem create_of_absent {absolute : Bool} {names : List Name} {name : Name} {left : Nat} {directory location : Location}
    {opened : FileSystem} (absent : files.isPresent (Intent.ofTarget target).temporary = false)
    (siblings : Siblings target (Utf8.encode temporarySuffix) absolute names name)
    (descends : Descends files.sight absolute names left directory)
    (created : files.create (Intent.ofTarget target).temporary = .ok (location, opened)) :
    location = stagedName name :: directory ∧
      opened = files.put (stagedName name :: directory) (.file Mode.newFile []) := by
  obtain ⟨holder, final, slash, mode, resolved, rfl, stands, rfl⟩ := create_eq_ok_iff_resolve.mp created
  have creates := resolve_eq_ok_iff_sight.mp resolved
  obtain ⟨right, there, descendsToo, arrives⟩ := (leads_iff_descends siblings.extended).mp creates
  obtain ⟨rfl, rfl⟩ := descends.lockstep (compatible_refl _) rfl descendsToo
  have dots := stagedName_ne_dots name
  obtain ⟨plain, enter⟩ := plain_of_arrives dots.1 dots.2 arrives
  have entry : Leads files.sight .entry (Intent.ofTarget target).temporary (.named directory (stagedName name) false) :=
    (leads_iff_descends siblings.extended).mpr ⟨left, directory, descends, .named enter plain nofun nofun⟩
  have free := free_of_absent absent (resolve_eq_ok_iff_sight.mpr entry)
  -- There is no link that could be followed.
  have here : Leads files.sight .creation (Intent.ofTarget target).temporary
      (.named directory (stagedName name) false) := by
    refine entry.unfollowed rfl fun _ body follow => ?_
    cases free.symm.trans (passage_sight_eq_follow.mp follow)
  cases creates.unique here
  rcases stands with ⟨-, rfl, -⟩ | ⟨content, occupied, -⟩
  · exact ⟨rfl, rfl⟩
  · cases free.symm.trans occupied

/-- Clearing the target away leaves a new file elsewhere as it is, though its mode may be changed through a link. -/
theorem Cleared.kept_new {cleared : FileSystem} (clear : Cleared target files cleared) {location : Location}
    {content : Bytes} (stands : files.get? location = some (.file Mode.newFile content)) {entry : Entry}
    (left : cleared.get? location = some entry) : entry = .file Mode.newFile content := by
  rcases clear with ⟨-, rfl⟩ | ⟨unprotected, changed, removed⟩
  · exact Option.some.inj (left.symm.trans stands)
  · obtain ⟨_, _, _, -, -, -, -, rfl⟩ := unlink_eq_ok_iff_resolve.mp removed
    obtain ⟨place, found, looked, rfl⟩ := changeMode_eq_ok changed
    obtain ⟨_, -, -, there, -⟩ := lookUp_eq_ok_iff_resolve.mp looked
    rw [get?_erase] at left
    split at left
    next => cases left
    next =>
      rw [get?_put] at left
      split at left
      next same =>
        cases there.symm.trans (same ▸ stands)
        cases left
        rfl
      next => exact Option.some.inj (left.symm.trans stands)

/-- What a publication that goes through leaves at the two names, if nothing was at the temporary path. -/
theorem Carried.pair {writes : List Bytes} {after : FileSystem}
    (carried : Carried (.ofTarget target) writes files after)
    (absent : files.isPresent (Intent.ofTarget target).temporary = false) :
    ∃ (directory : Location) (name : Name) (before : FileSystem),
      Pair after target (Intent.ofTarget target).temporary directory name (stagedName name)
        (some (.file 0o444 writes.flatten)) none after ∧
      after.mayChange directory = true ∧ after = before.put (name :: directory) (.file 0o444 writes.flatten) := by
  obtain ⟨file, opened, cleared, moved, created, clear, renames, protects⟩ := carried
  obtain ⟨withinOpened, concerned⟩ := (Within.refl (.ofTarget target) files).create (.inr rfl) created
  have within := (withinOpened.writes concerned writes).cleared clear
  obtain ⟨absolute, names, left, directory, name, entry, placed⟩ := within.rename clear renames
  -- The file that is renamed is the staged one.
  have descends := placed.descends.of_opens within.opens within.workingDirectory.symm
  obtain ⟨rfl, rfl⟩ := create_of_absent absent placed.siblings descends created
  rw [writes_put] at clear
  obtain rfl := clear.kept_new ((get?_put ..).trans (if_pos rfl)) placed.stands
  rw [List.nil_append] at *
  have found : Pair cleared target (Intent.ofTarget target).temporary directory name (stagedName name) none
      (some (.file Mode.newFile writes.flatten)) cleared := by
    refine ⟨⟨placed.free, placed.stands, fun _ _ _ => rfl, rfl, rfl⟩, extended_ne name, fun ending => ?_, fun ending => ?_⟩
    · refine resolve_eq_ok_iff_sight.mpr ((resolve_eq_ok_iff_sight.mp placed.new).unfollowed rfl fun _ body follow => ?_)
      cases placed.free.symm.trans (passage_sight_eq_follow.mp follow)
    · refine resolve_eq_ok_iff_sight.mpr ((resolve_eq_ok_iff_sight.mp placed.old).unfollowed rfl fun _ body follow => ?_)
      cases placed.stands.symm.trans (passage_sight_eq_follow.mp follow)
  have allowed := found.mayChange_of_rename renames
  obtain ⟨_, renamed, foundMoved⟩ := found.rename trivial rfl allowed
  obtain rfl := Except.ok.inj (renames.symm.trans renamed)
  obtain ⟨_, changed, foundAfter⟩ := foundMoved.changeMode rfl true
  obtain rfl := Except.ok.inj (protects.symm.trans changed)
  obtain ⟨_, same, isAfter⟩ := foundMoved.after_changeMode protects
  cases same
  have readOnly : Entry.mapMode (Mode.protect true) (.file Mode.newFile writes.flatten) = .file 0o444 writes.flatten :=
    congrArg (Entry.file · writes.flatten) protect_newFile
  rw [readOnly] at foundAfter isAfter
  exact ⟨directory, name, moved, foundAfter.rebase, foundAfter.mayChange.trans allowed, isAfter⟩

/-- From there, it leads back to the same state. -/
theorem Carried.again {writes : List Bytes} {directory : Location} {name : Name} {before again : FileSystem}
    (found : Pair files target (Intent.ofTarget target).temporary directory name (stagedName name)
      (some (.file 0o444 writes.flatten)) none files)
    (published : files = before.put (name :: directory) (.file 0o444 writes.flatten))
    (carried : Carried (.ofTarget target) writes files again) : again = files := by
  obtain ⟨file, opened, cleared, moved, created, clear, renames, protects⟩ := carried
  obtain ⟨creates, foundOpened⟩ := found.swap.create (found.swap.openable_of_create created)
  cases created.symm.trans creates
  have foundStaged := (foundOpened.writes writes).swap
  rw [writes_put] at clear foundStaged
  rw [List.nil_append] at clear foundStaged
  rcases clear with ⟨absent, -⟩ | ⟨unprotected, changed, removed⟩
  · cases foundStaged.isPresent.symm.trans absent
  obtain ⟨_, changes, foundUnprotected⟩ := foundStaged.changeMode rfl false
  obtain rfl := Except.ok.inj (changed.symm.trans changes)
  obtain ⟨allowed, -⟩ := foundUnprotected.unlink_eq_ok removed
  obtain ⟨_, removes, foundCleared⟩ := foundUnprotected.unlink rfl allowed
  obtain rfl := Except.ok.inj (removed.symm.trans removes)
  obtain ⟨_, moves, foundMoved⟩ := foundCleared.rename trivial rfl allowed
  obtain rfl := Except.ok.inj (renames.symm.trans moves)
  -- What the calls leave, one after the other.
  obtain ⟨_, same, isUnprotected⟩ := foundStaged.after_changeMode changed
  cases same
  have isCleared := foundUnprotected.after_unlink removed
  obtain ⟨_, same, isMoved⟩ := foundCleared.after_rename renames
  cases same
  obtain ⟨_, same, isAgain⟩ := foundMoved.after_changeMode protects
  cases same
  rw [isAgain, isMoved, put_put, isCleared, isUnprotected, erase_put, erase_comm, erase_put, erase_of_free found.second,
    put_erase, published, put_put]
  exact congrArg (fun mode => before.put (name :: directory) (.file mode writes.flatten)) protect_newFile

end

end FileSystem

namespace Publish

open FileSystem (Location Pair stagedName)

/-- A publication that goes through, with nothing at the temporary path before it, puts a read-only file with the text
    at its target, and nothing at the temporary path. On the files that it leaves it goes through once more, and changes
    nothing. -/
theorem publish_again {target : Bytes} {writes : List Bytes} {world after : World}
    (absent : world.files.isPresent (Intent.ofTarget target).temporary = false)
    (succeeds : (publish (.ofTarget target) writes : Program Location (Except Fault Unit)).run world = (.ok (), after)) :
    (∃ location, after.files.lookUp .status target = .ok (location, .file 0o444 writes.flatten)) ∧
      after.files.isPresent (Intent.ofTarget target).temporary = false ∧
      (publish (.ofTarget target) writes : Program Location (Except Fault Unit)).run { world with files := after.files } =
        (.ok (), after) := by
  obtain ⟨directory, name, before, found, allowed, published⟩ := (carried_of_publish succeeds).pair absent
  refine ⟨⟨_, FileSystem.lookUp_eq_ok_iff_resolve.mpr ⟨_, found.resolve .status, rfl, found.first, nofun⟩⟩,
    found.swap.isPresent, ?_⟩
  obtain ⟨staged, stages, beside⟩ := run_stage world (.ofTarget target) found writes allowed
  obtain ⟨replaced, replaces, -⟩ := run_replace world (.ofTarget target) beside trivial rfl allowed
  have again := (publish_of_stage stages replaces).1
  obtain rfl := (carried_of_publish again).again found published
  -- The first publication printed nothing, so that it changed the files alone.
  have streams := (silent_publish (.ofTarget target) writes).run_streams world
  rw [succeeds] at streams
  rw [again, ← streams.1, ← streams.2]

end Publish

end ActorSurface
