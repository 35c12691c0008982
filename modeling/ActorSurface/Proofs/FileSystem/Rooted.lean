import ActorSurface.Proofs.FileSystem.Answers
import ActorSurface.Proofs.Program.Steps

/-!
What no run of a program changes: a process stays privileged, and the directories stay as they are, since the
calls of a program neither make nor remove one (`sound_run`). So a path that leads to a directory as such
leads to one that is there (`Leads.directory`).
-/

namespace ActorSurface

namespace FileSystem

/-- The root, the working directory and what is above a directory are directories. -/
structure Rooted (files : FileSystem) : Prop where
  root : files.passage [] = .enter
  workingDirectory : files.passage files.workingDirectory = .enter
  above : ∀ location, files.passage location = .enter → files.passage (Location.above location) = .enter

/-- A file system as a privileged process finds it. -/
structure Sound (files : FileSystem) : Prop where
  privileged : files.privileged = true
  rooted : Rooted files

/-- Soundness rests on the directories only. -/
theorem Sound.of_enters {files after : FileSystem} (sound : Sound files)
    (privileged : after.privileged = files.privileged) (sameStart : after.workingDirectory = files.workingDirectory)
    (enters : ∀ location, after.passage location = .enter ↔ files.passage location = .enter) : Sound after := by
  obtain ⟨isPrivileged, root, start, above⟩ := sound
  refine ⟨privileged.trans isPrivileged, (enters _).mpr root, ?_, ?_⟩
  · rw [sameStart]
    exact (enters _).mpr start
  · exact fun location enter => (enters _).mpr (above location ((enters location).mp enter))

theorem Sound.of_alike {files after : FileSystem} (sound : Sound files) (alike : Alike files after) : Sound after :=
  sound.of_enters alike.privileged alike.workingDirectory fun location => by rw [alike.passage]

theorem not_enter_of_get? {files : FileSystem} {location : Location} {entry : Entry}
    (stands : files.get? location = some entry) (notDirectory : entry.isDirectory = false) :
    files.passage location ≠ .enter := by
  intro enter
  obtain ⟨mode, directory⟩ := passage_eq_enter.mp enter
  cases stands.symm.trans directory
  simp [Entry.isDirectory] at notDirectory

theorem Sound.erase {files : FileSystem} (sound : Sound files) {location : Location}
    (notDirectory : files.passage location ≠ .enter) : Sound (files.erase location) := by
  refine sound.of_enters rfl rfl fun other => ?_
  rw [passage_erase]
  split
  next same =>
    subst same
    simp [notDirectory]
  next => rfl

theorem Sound.put {files : FileSystem} (sound : Sound files) {location : Location} {entry : Entry}
    (plain : entry.isDirectory = false) (notDirectory : files.passage location ≠ .enter) :
    Sound (files.put location entry) := by
  refine sound.of_enters rfl rfl fun other => ?_
  rw [passage_put]
  split
  next same =>
    subst same
    cases entry <;> simp_all [Passage.ofEntry, Entry.isDirectory]
  next => rfl

/-- A file system with nothing but a working directory is sound. -/
theorem sound_empty (workingDirectory : Name) : Sound (empty workingDirectory true) := by
  have enters : ∀ location, (empty workingDirectory true).passage location = .enter ↔
      location = [] ∨ location = [workingDirectory] := by
    intro location
    unfold passage get? empty
    rw [List.lookup_cons, List.lookup_cons, List.lookup_nil]
    by_cases root : location = []
    · simp [root, Passage.ofEntry]
    · by_cases working : location = [workingDirectory]
      · simp [working, Passage.ofEntry]
      · simp [root, working, beq_eq_false_iff_ne.mpr, Passage.ofEntry]
  refine ⟨rfl, (enters _).mpr (.inl rfl), (enters _).mpr (.inr rfl), fun location enter => ?_⟩
  rcases (enters location).mp enter with rfl | rfl
  · exact (enters _).mpr (.inl rfl)
  · exact (enters _).mpr (.inl rfl)

/-- A directory that is made in another leaves a sound file system sound. -/
theorem sound_makeDirectory {files after : FileSystem} (sound : Sound files) {path : Bytes} {mode : Mode}
    (made : files.makeDirectory path mode = .ok after) : Sound after := by
  unfold makeDirectory at made
  cases resolved : files.resolve .entry path with
  | error fault => simp [resolved, bind, Except.bind] at made
  | ok spot =>
    have leads := (resolve_eq_ok_iff sound.privileged).mp resolved
    simp only [resolved, bind, Except.bind] at made
    cases spot with
    | directory here => cases made
    | named directory name slash =>
      have enter := leads.enter
      simp only [mayChange_of_enter sound.privileged enter] at made
      by_cases occupied : (files.get? (name :: directory)).isSome = true
      · simp [occupied] at made
      obtain rfl : files.put (name :: directory) (.directory mode) = after := by simpa [occupied] using made
      have kept : ∀ location, files.passage location = .enter →
          (files.put (name :: directory) (.directory mode)).passage location = .enter := by
        intro location enters
        rw [passage_put]
        split
        · rfl
        · exact enters
      obtain ⟨privileged, root, start, above⟩ := sound
      refine ⟨privileged, kept _ root, kept _ start, fun location enters => ?_⟩
      rw [passage_put] at enters
      split at enters
      next new =>
        subst new
        exact kept _ enter
      next => exact kept _ (above location enters)

theorem sound_unlink {files after : FileSystem} (sound : Sound files) {path : Bytes}
    (removed : files.unlink path = .ok after) : Sound after := by
  obtain ⟨_, _, entry, -, stands, notDirectory, rfl⟩ := (unlink_eq_ok_iff sound.privileged).mp removed
  exact sound.erase (not_enter_of_get? stands notDirectory)

theorem sound_rename {files after : FileSystem} (sound : Sound files) {source target : Bytes}
    (renamed : files.rename source target = .ok after) : Sound after := by
  obtain ⟨_, _, _, _, entry, -, -, stands, plain, free, rfl⟩ :=
    (rename_eq_ok_iff sound.privileged).mp renamed
  refine (sound.erase (not_enter_of_get? stands plain)).put plain ?_
  rw [passage_erase]
  split
  · simp
  · exact free

end FileSystem

open FileSystem

/-- A call leaves a sound file system sound. -/
theorem sound_call {α : Type} (call : Call Location α) (world : World) (sound : Sound world.files) :
    Sound (call.run world).2.files := by
  cases call with
  | readText path => exact sound
  | create path =>
    rw [Call.run_create]
    cases created : world.files.create path with
    | error fault => exact sound
    | ok answer => exact sound.of_alike (alike_create created)
  | write file octets => exact sound.of_alike (alike_write _ _ _)
  | sync file => exact sound
  | isPresent path => exact sound
  | setReadOnly path readOnly =>
    rw [Call.run_setReadOnly]
    rcases settle_cases world (world.files.changeMode path (Mode.protect readOnly)) with
      ⟨after, changed, settled⟩ | ⟨fault, -, settled⟩
    · rw [settled]
      exact sound.of_alike (alike_changeMode changed)
    · rw [settled]
      exact sound
  | unlink path =>
    rw [Call.run_unlink]
    rcases settle_cases world (world.files.unlink path) with ⟨after, removed, settled⟩ | ⟨fault, -, settled⟩
    · rw [settled]
      exact sound_unlink sound removed
    · rw [settled]
      exact sound
  | rename source target =>
    rw [Call.run_rename]
    rcases settle_cases world (world.files.rename source target) with ⟨after, renamed, settled⟩ | ⟨fault, -, settled⟩
    · rw [settled]
      exact sound_rename sound renamed
    · rw [settled]
      exact sound
  | print stream line =>
    rw [Call.files_print]
    exact sound

/-- A run leaves a sound file system sound. -/
theorem sound_run {α : Type} (program : Program Location α) (world : World) (sound : Sound world.files) :
    Sound (program.run world).2.files :=
  program.run_keeps (fun world => Sound world.files) (fun call world => sound_call call world) world sound

namespace FileSystem

/-- A walk from a directory that arrives at a directory as such arrives at one that is there. -/
theorem Arrives.directory {files : FileSystem} (rooted : Rooted files) {ending : Ending} {walker : Walker}
    {slash : Bool} {location : Location} (arrives : Arrives files ending walker slash (.directory location))
    (enter : files.passage walker.here = .enter) : files.passage location = .enter := by
  have based : ∀ body here, files.passage here = .enter → files.passage (base body here) = .enter := by
    intro body here enter
    unfold base
    split
    · exact rooted.root
    · exact enter
  generalize spot : Spot.directory location = there at arrives
  induction arrives with
  | ended =>
    cases spot
    exact enter
  | pass step _ _ ih =>
    refine ih ?_ spot
    cases step with
    | stay _ => exact enter
    | up _ => exact rooted.above _ enter
    | down _ _ down => exact down
    | through _ _ _ => exact based _ _ enter
  | follow _ _ _ _ _ _ ih => exact ih (based _ _ enter) spot
  | named _ _ _ _ => cases spot

/-- A path that leads to a directory as such leads to one that is there. -/
theorem Leads.directory {files : FileSystem} (rooted : Rooted files) {ending : Ending} {path : Bytes}
    {location : Location} (leads : Leads files ending path (.directory location)) :
    files.passage location = .enter := by
  obtain ⟨parts, -, arrives⟩ := leads
  refine arrives.directory rooted ?_
  change files.passage (files.start parts) = .enter
  unfold start
  split
  · exact rooted.root
  · exact rooted.workingDirectory

end FileSystem

end ActorSurface
