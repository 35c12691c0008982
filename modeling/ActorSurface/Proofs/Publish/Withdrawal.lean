import ActorSurface.Proofs.FileSystem.Rooted
import ActorSurface.Publish

/-!
What a failed run leaves. Removing a path leaves nothing but a directory there, whether or not the removal is
carried out (`gone_unlink`), and no later removal or change of modes brings anything back (`Gone.erase`,
`Gone.changeMode`). So neither the staged file nor the target is there behind `discard` and `retract`
(`gone_withdrawn`).
-/

namespace ActorSurface

namespace FileSystem

/-- Nothing but a directory stands where a path leads, links not followed. -/
def Gone (files : FileSystem) (path : Bytes) : Prop :=
  ∀ location entry, files.lookUp .status path = .ok (location, entry) → entry.isDirectory = true

/-- Where no file or link can be removed, none is found. -/
theorem gone_of_unlink_eq_error {files : FileSystem} (sound : Sound files) {path : Bytes} {fault : Fault}
    (kept : files.unlink path = .error fault) : Gone files path := by
  intro location entry found
  obtain ⟨spot, leads, rfl, stands, fits⟩ := (lookUp_eq_ok_iff sound.privileged).mp found
  rw [← Bool.not_eq_false]
  intro notDirectory
  cases spot with
  | directory here =>
    exact not_enter_of_get? stands notDirectory (leads.directory sound.rooted)
  | named directory name slash =>
    obtain rfl : slash = false := by simpa [Spot.slash, notDirectory] using fits
    have entryLeads : Leads files .entry path (.named directory name false) := leads.entry rfl
    have removed := (unlink_eq_ok_iff sound.privileged).mpr ⟨directory, name, entry, entryLeads, stands, notDirectory, rfl⟩
    cases kept.symm.trans removed

/-- Behind its removal nothing is found at a path. -/
theorem not_found_of_unlink_eq_ok {files after : FileSystem} (sound : Sound files) {path : Bytes}
    (removed : files.unlink path = .ok after) {location : Location} {entry : Entry} :
    after.lookUp .status path ≠ .ok (location, entry) := by
  intro found
  have soundAfter := sound_unlink sound removed
  obtain ⟨directory, name, _, leads, -, -, rfl⟩ := (unlink_eq_ok_iff sound.privileged).mp removed
  obtain ⟨spot, finds, rfl, stands, -⟩ := (lookUp_eq_ok_iff soundAfter.privileged).mp found
  have elsewhere : spot.location ≠ name :: directory := by
    intro same
    simp [same] at stands
  have statusLeads : Leads files .status path (.named directory name false) := leads.status rfl
  exact elsewhere (congrArg Spot.location ((finds.of_erase elsewhere).unique statusLeads))

/-- Behind its removal a path leads to nothing. -/
theorem gone_of_unlink_eq_ok {files after : FileSystem} (sound : Sound files) {path : Bytes}
    (removed : files.unlink path = .ok after) : Gone after path :=
  fun _ _ found => absurd found (not_found_of_unlink_eq_ok sound removed)

/-- Removing another name brings nothing back. -/
theorem Gone.erase {files : FileSystem} (privileged : files.privileged = true) {path : Bytes} (gone : Gone files path)
    (location : Location) : Gone (files.erase location) path := by
  intro place entry found
  have privilegedAfter : (files.erase location).privileged = true := privileged
  obtain ⟨spot, leads, rfl, stands, fits⟩ := (lookUp_eq_ok_iff privilegedAfter).mp found
  have elsewhere : spot.location ≠ location := by
    intro same
    simp [same] at stands
  rw [get?_erase, if_neg elsewhere] at stands
  exact gone _ _ ((lookUp_eq_ok_iff privileged).mpr ⟨spot, leads.of_erase elsewhere, rfl, stands, fits⟩)

theorem isDirectory_mapMode (entry : Entry) (change : Mode → Mode) :
    (entry.mapMode change).isDirectory = entry.isDirectory := by
  cases entry <;> rfl

/-- Changing modes brings nothing back. -/
theorem Gone.changeMode {files after : FileSystem} (privileged : files.privileged = true) {path other : Bytes}
    {change : Mode → Mode} (gone : Gone files path) (changed : files.changeMode other change = .ok after) :
    Gone after path := by
  have alike := alike_changeMode changed
  intro place entry found
  obtain ⟨spot, leads, rfl, stands, fits⟩ := (lookUp_eq_ok_iff (alike.privileged.trans privileged)).mp found
  obtain ⟨location, old, looked, rfl⟩ := changeMode_eq_ok changed
  obtain ⟨-, -, -, stood, -⟩ := (lookUp_eq_ok_iff privileged).mp looked
  have before := alike.symm.leads leads
  rw [get?_put] at stands
  split at stands
  next same =>
    obtain rfl : old.mapMode change = entry := by simpa using stands
    rw [isDirectory_mapMode] at fits ⊢
    exact gone _ _ ((lookUp_eq_ok_iff privileged).mpr ⟨spot, before, rfl, same ▸ stood, fits⟩)
  next => exact gone _ _ ((lookUp_eq_ok_iff privileged).mpr ⟨spot, before, rfl, stands, fits⟩)

end FileSystem

namespace Publish

open FileSystem (Sound Gone Location)

/-- A removal that is tried leaves nothing but a directory. -/
theorem gone_tried (path : Bytes) (world : World) (sound : Sound world.files) :
    Gone ((Call.unlink path).run world).2.files path := by
  rw [Call.run_unlink]
  rcases settle_cases world (world.files.unlink path) with ⟨after, removed, settled⟩ | ⟨fault, kept, settled⟩
  · rw [settled]
    exact FileSystem.gone_of_unlink_eq_ok sound removed
  · rw [settled]
    exact FileSystem.gone_of_unlink_eq_error sound kept

/-- Trying another removal keeps what is gone away. -/
theorem gone_unlink_other {path : Bytes} (other : Bytes) (world : World) (sound : Sound world.files)
    (gone : Gone world.files path) : Gone ((Call.unlink other).run world).2.files path := by
  rw [Call.run_unlink]
  rcases settle_cases world (world.files.unlink other) with ⟨after, removed, settled⟩ | ⟨fault, -, settled⟩
  · rw [settled]
    obtain ⟨directory, name, _, -, -, -, rfl⟩ := (FileSystem.unlink_eq_ok_iff sound.privileged).mp removed
    exact gone.erase sound.privileged (name :: directory)
  · rw [settled]
    exact gone

theorem gone_setReadOnly {path : Bytes} (other : Bytes) (readOnly : Bool) (world : World) (sound : Sound world.files)
    (gone : Gone world.files path) : Gone ((Call.setReadOnly other readOnly).run world).2.files path := by
  rw [Call.run_setReadOnly]
  rcases settle_cases world (world.files.changeMode other (FileSystem.Mode.protect readOnly)) with
    ⟨after, changed, settled⟩ | ⟨fault, -, settled⟩
  · rw [settled]
    exact gone.changeMode sound.privileged changed
  · rw [settled]
    exact gone

/-- Behind discarding, the staged file is gone. -/
theorem gone_discard (intent : Intent) (world : World) (sound : Sound world.files) :
    Gone ((discard intent : Program Location Unit).run world).2.files intent.temporary := by
  unfold discard
  rw [Program.run_bind, Program.run_ofCall, Program.run_pure]
  exact gone_tried intent.temporary world sound

/-- Behind retracting, the target is gone, and what was gone before still is. -/
theorem gone_retract (intent : Intent) (world : World) (sound : Sound world.files) :
    Gone ((retract intent : Program Location Unit).run world).2.files intent.target ∧
      ∀ path, Gone world.files path → Gone ((retract intent : Program Location Unit).run world).2.files path := by
  unfold retract
  rw [Program.run_bind, Program.run_ofCall, Call.run_isPresent]
  by_cases present : world.files.isPresent intent.target = true
  · have soundBehind := sound_call (.setReadOnly intent.target false) world sound
    rw [if_pos present]
    simp only [Program.run_bind, Program.run_ofCall, Program.run_pure]
    refine ⟨gone_tried intent.target _ soundBehind, fun path gone => ?_⟩
    exact gone_unlink_other intent.target _ soundBehind (gone_setReadOnly intent.target false world sound gone)
  · rw [if_neg present]
    refine ⟨fun location entry found => ?_, fun path gone => gone⟩
    have stands : world.files.lookUp .status intent.target = .ok (location, entry) := found
    simp [FileSystem.isPresent, stands] at present

end Publish

end ActorSurface
