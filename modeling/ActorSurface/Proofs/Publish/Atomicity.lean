import ActorSurface.Proofs.Compile.Footprint
import ActorSurface.Proofs.Publish.Specification
import ActorSurface.Proofs.Publish.Withdrawal

/-!
What a publication that fails leaves. Its message begins with the step that failed (`Fault.begins_iff`). A step of
staging changes nothing, and then only what is at the temporary path is removed. Behind a later step nothing is left at
the temporary path, and at the target at most a directory; since no call makes a directory, it is one that was there
(`Within.directory`).
-/

namespace ActorSurface

namespace FileSystem

open Publish (Intent temporarySuffix)

section

variable {target : Bytes} {origin files after : FileSystem} {location : Location} {mode : Mode}

/-- A directory that is found was found before. -/
theorem Within.directory {intent : Intent} (within : Within intent origin files) (privileged : files.privileged = true)
    {ending : Ending} {path : Bytes} (found : files.lookUp ending path = .ok (location, .directory mode)) :
    ∃ before, origin.lookUp ending path = .ok (location, .directory before) := by
  obtain ⟨spot, resolved, rfl, stands, -⟩ := lookUp_eq_ok_iff_resolve.mp found
  have enter : files.sight.passage spot.location = .enter := by
    rw [passage_sight_of_privileged privileged]
    exact passage_eq_enter.mpr ⟨mode, stands⟩
  have same := within.opens spot.location (by simp [enter])
  have resolvedBefore : origin.resolve ending path = .ok spot := resolve_eq_ok_iff_sight.mpr
    ((resolve_eq_ok_iff_sight.mp resolved).of_opens within.opens within.workingDirectory.symm same)
  have privilegedBefore : origin.privileged = true := within.privileged.symm.trans privileged
  rw [enter, passage_sight_of_privileged privilegedBefore] at same
  obtain ⟨before, stood⟩ := passage_eq_enter.mp same
  exact ⟨before, lookUp_eq_ok_iff_resolve.mpr ⟨spot, resolvedBefore, rfl, stood, fun _ => rfl⟩⟩

namespace Moved

variable {cleared : FileSystem} {absolute : Bool} {names : List Name} {left : Nat} {directory : Location} {name : Name}
  {entry found : Entry} (moved : Moved target origin cleared absolute names left directory name entry files)

include moved

/-- What is renamed to the target is no directory. -/
theorem not_directory (privileged : files.privileged = true) (mode : Mode) :
    files.lookUp .status target ≠ .ok (location, .directory mode) := by
  intro looked
  obtain ⟨spot, resolved, rfl, stands, -⟩ := lookUp_eq_ok_iff_resolve.mp looked
  rcases arrives_last moved.siblings.plain (moved.arrives moved.siblings.argument resolved) with
    ⟨rfl, -⟩ | ⟨_, _, _, _, follows, -⟩
  · have enter := passage_eq_enter.mpr ⟨mode, stands⟩
    have same := moved.alike.passage (name :: directory)
    rw [sight_renamed, passage_renamed, if_pos rfl, passage_sight_of_privileged privileged] at same
    have offered := same.trans enter
    cases entry with
    | file mode content => cases offered
    | link body => cases offered
    | directory mode => cases moved.notDirectory
  · cases follows

theorem not_found_temporary (found : Entry) :
    files.lookUp .status (Intent.ofTarget target).temporary ≠ .ok (location, found) := by
  intro looked
  obtain ⟨spot, resolved, rfl, stands, -⟩ := lookUp_eq_ok_iff_resolve.mp looked
  rcases arrives_last moved.siblings.plainExtended (moved.arrives moved.siblings.extended resolved) with
    ⟨rfl, -⟩ | ⟨_, _, _, _, follows, -⟩
  · cases moved.vacated.symm.trans stands
  · cases follows

end Moved

theorem Gone.directory {path : Bytes} {entry : Entry} (gone : Gone files path)
    (found : files.lookUp .status path = .ok (location, entry)) : ∃ mode, entry = .directory mode := by
  have isDirectory := gone location entry found
  cases entry with
  | directory mode => exact ⟨mode, rfl⟩
  | file mode content => cases isDirectory
  | link body => cases isDirectory

/-! ### The temporary path -/

theorem temporary_unslashed (target : Bytes) : (Path.ofBytes (Intent.ofTarget target).temporary).slash = false := by
  have suffix : (Utf8.encode temporarySuffix).getLast? = some 0x70 := by decide
  have ends : (Intent.ofTarget target).temporary.getLast? = some 0x70 := by
    simp only [Intent.ofTarget, List.getLast?_append, suffix, Option.some_or]
  simp [Path.ofBytes, ends, separator]

/-- No directory is at a temporary path at which a file can be opened. -/
theorem not_directory_of_create (privileged : files.privileged = true) {file : Location}
    (created : files.create (Intent.ofTarget target).temporary = .ok (file, after)) (mode : Mode) :
    files.lookUp .status (Intent.ofTarget target).temporary ≠ .ok (location, .directory mode) := by
  intro looked
  obtain ⟨spot, ⟨parts, argument, finds⟩, rfl, stands, -⟩ := (lookUp_eq_ok_iff privileged).mp looked
  obtain ⟨directory, name, slash, _, ⟨same, again, creates⟩, rfl, blocked, -⟩ := create_eq_ok privileged created
  obtain rfl : parts = same := Except.ok.inj (argument.symm.trans again)
  obtain ⟨-, rfl⟩ := Path.ofArgument_eq_ok argument
  rw [temporary_unslashed] at finds creates
  obtain ⟨final, entry, ends⟩ := creates.exists_entry
  obtain rfl := entry.unique (finds.entry_of_unfollowed rfl)
  have enter := passage_eq_enter.mpr ⟨mode, stands⟩
  rcases ends with here | ⟨body, follow⟩
  · rw [here] at enter
    cases blocked.symm.trans enter
  · cases follow.symm.trans enter

/-- Removing at a path leaves the entries elsewhere. -/
theorem get?_of_unlink {path : Bytes} (removed : files.unlink path = .ok after) (elsewhere : ¬ files.At path location) :
    after.get? location = files.get? location := by
  obtain ⟨directory, name, _, resolved, -, -, -, rfl⟩ := unlink_eq_ok_iff_resolve.mp removed
  rw [get?_erase, if_neg fun same => elsewhere ⟨_, resolved, same.symm⟩]

/-- Removing at the temporary path leaves what is found at the target. -/
theorem kept_of_unlink_temporary (sound : Sound files) {entry : Entry}
    (removed : files.unlink (Intent.ofTarget target).temporary = .ok after)
    (found : files.lookUp .status target = .ok (location, entry)) : after.get? location = some entry := by
  obtain ⟨spot, leads, rfl, stands, fits⟩ := (lookUp_eq_ok_iff sound.privileged).mp found
  obtain ⟨directory, name, staged, removes, there, notDirectory, rfl⟩ :=
    (unlink_eq_ok_iff sound.privileged).mp removed
  rw [get?_erase, if_neg, stands]
  intro same
  obtain rfl : entry = staged := Option.some.inj (stands.symm.trans (same ▸ there))
  cases spot with
  | directory here => exact not_enter_of_get? stands notDirectory (leads.directory sound.rooted)
  | named holder final slash =>
    obtain rfl : slash = false := by simpa [Spot.slash, notDirectory] using fits
    obtain ⟨_, _, _, _, _, arrives⟩ := exists_siblings suffix_unseparated (leads.entry rfl) removes
    obtain ⟨rfl, rfl⟩ := arrives_entry arrives
    exact extended_ne final (List.cons.inj same).1.symm

end

end FileSystem

namespace Publish

open FileSystem (Entry Gone Location Mode Sound Within Settled)

/-! ### Messages -/

/-- The words that tell a step. -/
def Step.words : Step → String
  | .creating => "creating"
  | .writing => "writing"
  | .unprotecting => "unprotecting"
  | .removing => "removing previous"
  | .renaming => "renaming"
  | .protecting => "protecting"

/-- Some text begins with some words. -/
def Begins (text words : String) : Prop :=
  ∃ rest, text = words ++ rest

theorem Begins.append {text words : String} (begins : Begins text words) (more : String) :
    Begins (text ++ more) words := by
  obtain ⟨rest, rfl⟩ := begins
  exact ⟨rest ++ more, String.append_assoc⟩

theorem Step.begins_description (intent : Intent) (step : Step) : Begins (step.description intent) step.words := by
  have told : ∀ words path : String, Begins (words ++ " " ++ path) words :=
    fun words path => ⟨" " ++ path, String.append_assoc⟩
  match step with
  | .creating => exact told "creating" _
  | .writing => exact told "writing" _
  | .unprotecting => exact told "unprotecting" _
  | .removing => exact told "removing previous" _
  | .renaming => exact ((told "renaming" _).append _).append _
  | .protecting => exact told "protecting" _

theorem Fault.begins_message (intent : Intent) (fault : Fault) : Begins (fault.message intent) fault.step.words :=
  ((Step.begins_description intent fault.step).append ": ").append fault.cause.message

/-- The words of no step begin with those of another. -/
theorem Step.eq_of_words {one other : Step} (begins : one.words.toList <+: other.words.toList) : one = other := by
  revert begins
  cases one <;> cases other <;> decide +kernel

/-- A message begins with the words of the step that failed, and of no other. -/
theorem Fault.begins_iff {intent : Intent} {fault : Fault} {step : Step} :
    Begins (fault.message intent) step.words ↔ fault.step = step := by
  refine ⟨fun ⟨rest, told⟩ => ?_, fun same => same ▸ fault.begins_message intent⟩
  obtain ⟨more, same⟩ := fault.begins_message intent
  have first : fault.step.words.toList <+: (fault.message intent).toList := ⟨more.toList, by simp [same]⟩
  have second : step.words.toList <+: (fault.message intent).toList := ⟨rest.toList, by simp [told]⟩
  rcases List.prefix_or_prefix_of_prefix first second with shorter | shorter
  · exact Step.eq_of_words shorter
  · exact (Step.eq_of_words shorter).symm

/-! ### The steps that fail -/

section

variable {α β : Type} {world after : World} {fault : Fault} {intent : Intent}

/-- A sequence fails at none but some steps. -/
def FailsAt (steps : List Step) (sequence : Sequence α) : Prop :=
  ∀ world fault after, sequence.run.run world = (.error fault, after) → fault.step ∈ steps

theorem failsAt_attempt {steps : List Step} {step : Step} (call : Call Location (FileSystem.Answer α))
    (listed : step ∈ steps) : FailsAt steps (attempt step call : Sequence α) := by
  intro world fault after fails
  rw [run_attempt] at fails
  cases ran : (call.run world).1 with
  | ok value =>
    rw [ran] at fails
    cases fails
  | error cause =>
    rw [ran] at fails
    cases fails
    exact listed

theorem FailsAt.bind {steps : List Step} {first : Sequence α} {next : α → Sequence β} (fails : FailsAt steps first)
    (others : ∀ value, FailsAt steps (next value)) : FailsAt steps (first >>= next) := by
  intro world fault after failed
  cases ran : first.run.run world with
  | mk answer middle =>
    cases answer with
    | ok value => exact others value middle fault after ((run_bind_of_ok next ran).symm.trans failed)
    | error cause =>
      cases (run_bind_of_error next ran).symm.trans failed
      exact fails world _ _ ran

theorem failsAt_replace (intent : Intent) :
    FailsAt [.unprotecting, .removing, .renaming, .protecting] (replace intent : Sequence Unit) := by
  have clears : FailsAt [.unprotecting, .removing, .renaming, .protecting] (clear intent : Sequence Unit) := by
    refine FailsAt.bind (fun _ _ _ asks => by cases asks) fun present => ?_
    cases present with
    | false => exact fun _ _ _ ends => by cases ends
    | true => exact (failsAt_attempt _ (by simp)).bind fun _ => failsAt_attempt _ (by simp)
  refine clears.bind fun _ => ?_
  exact (failsAt_attempt _ (by simp)).bind fun _ => failsAt_attempt _ (by simp)

/-- Staging fails where the staged file cannot be opened. -/
theorem stage_eq_error {writes : List Bytes}
    (fails : (stage intent writes : Sequence Unit).run.run world = (.error fault, after)) :
    ∃ cause, world.files.create intent.temporary = .error cause ∧ fault = ⟨.creating, cause⟩ := by
  cases created : world.files.create intent.temporary with
  | error cause =>
    cases (run_stage_of_create_error writes created).symm.trans fails
    exact ⟨cause, rfl, rfl⟩
  | ok answer => cases (run_stage_of_create writes created).symm.trans fails

/-- A publication fails where the staged file cannot be opened, or behind staging. -/
theorem publish_eq_error {writes : List Bytes}
    (fails : (publish intent writes : Program Location (Except Fault Unit)).run world = (.error fault, after)) :
    (∃ cause, fault = ⟨.creating, cause⟩ ∧ after = ((Call.unlink intent.temporary).run world).2) ∨
      ∃ staged failed, (stage intent writes : Sequence Unit).run.run world = (.ok (), staged) ∧
        (replace intent : Sequence Unit).run.run staged = (.error fault, failed) ∧
        after = ((retract intent : Program Location Unit).run
          ((discard intent : Program Location Unit).run failed).2).2 := by
  cases stages : (stage intent writes : Sequence Unit).run.run world with
  | mk answer staged =>
    cases answer with
    | error cause =>
      obtain ⟨cause, created, rfl⟩ := stage_eq_error stages
      cases (publish_of_create_eq_error writes created).1.symm.trans fails
      exact .inl ⟨cause, rfl, rfl⟩
    | ok value =>
      cases replaces : (replace intent : Sequence Unit).run.run staged with
      | mk answer failed =>
        cases answer with
        | ok value => cases (publish_of_stage stages replaces).1.symm.trans fails
        | error cause =>
          cases (publish_of_replace_error stages replaces).symm.trans fails
          exact .inr ⟨staged, failed, rfl, replaces, rfl⟩

end

/-! ### What is left -/

/-- What a publication leaves that fails while it stages: all as it was, but for what was at the temporary path, where
    nothing is found then or a directory that was found there before. -/
structure Unstaged (target : Bytes) (before after : FileSystem) : Prop where
  others : ∀ location, ¬ before.At (Intent.ofTarget target).temporary location →
    after.get? location = before.get? location
  kept : ∀ location entry, before.lookUp .status target = .ok (location, entry) → after.get? location = some entry
  staged : ∀ location entry, after.lookUp .status (Intent.ofTarget target).temporary = .ok (location, entry) →
    entry.isDirectory = true ∧ before.lookUp .status (Intent.ofTarget target).temporary = .ok (location, entry)

/-- What a publication leaves that fails later: nothing at the temporary path, and at the target nothing or a directory
    that was there. -/
structure Withdrawn (target : Bytes) (before after : FileSystem) : Prop where
  staged : after.isPresent (Intent.ofTarget target).temporary = false
  target : ∀ location entry, after.lookUp .status target = .ok (location, entry) → entry.isDirectory = true ∧
    ∃ mode, before.lookUp .status target = .ok (location, .directory mode)

section

variable {target : Bytes} {writes : List Bytes} {world after : World} (sound : Sound world.files)

include sound

/-- Removing the staged file leaves all other entries. -/
theorem unstaged_of_unlink :
    Unstaged target world.files ((Call.unlink (Intent.ofTarget target).temporary).run world).2.files := by
  rw [Call.run_unlink]
  rcases settle_cases world (world.files.unlink (Intent.ofTarget target).temporary) with
    ⟨files, removed, settled⟩ | ⟨cause, kept, settled⟩
  · rw [settled]
    refine ⟨fun location => FileSystem.get?_of_unlink removed, fun location entry found => ?_,
      fun location entry found => ?_⟩
    · exact FileSystem.kept_of_unlink_temporary sound removed found
    · exact absurd found (FileSystem.not_found_of_unlink_eq_ok sound removed)
  · rw [settled]
    refine ⟨fun _ _ => rfl, fun location entry found => ?_, fun location entry found => ?_⟩
    · obtain ⟨-, -, -, stands, -⟩ := FileSystem.lookUp_eq_ok_iff_resolve.mp found
      exact stands
    · exact ⟨FileSystem.gone_of_unlink_eq_error sound kept location entry found, found⟩

/-- Where a text was staged and its file was removed, nothing is found at the temporary path. -/
theorem not_found_staged {staged : World} (soundAfter : Sound after.files)
    (stages : (stage (.ofTarget target) writes : Sequence Unit).run.run world = (.ok (), staged))
    (settled : Settled target world.files after.files) (gone : Gone after.files (Intent.ofTarget target).temporary)
    (location : Location) (entry : Entry) :
    after.files.lookUp .status (Intent.ofTarget target).temporary ≠ .ok (location, entry) := by
  intro found
  obtain ⟨mode, rfl⟩ := gone.directory found
  cases settled with
  | within within =>
    obtain ⟨file, opened, created, -⟩ := stage_eq_ok stages
    obtain ⟨before, stood⟩ := within.directory soundAfter.privileged found
    exact FileSystem.not_directory_of_create sound.privileged created before stood
  | moved moved => exact moved.not_found_temporary _ found

/-- A text that was staged is withdrawn where it does not replace what is at the target. -/
theorem withdrawn_of_replace_error {staged failed : World} {fault : Fault}
    (stages : (stage (.ofTarget target) writes : Sequence Unit).run.run world = (.ok (), staged))
    (replaces : (replace (.ofTarget target) : Sequence Unit).run.run staged = (.error fault, failed)) :
    Withdrawn target world.files ((retract (.ofTarget target) : Program Location Unit).run
      ((discard (.ofTarget target) : Program Location Unit).run failed).2).2.files := by
  have settled := settled_publish writes (Within.refl (.ofTarget target) world.files)
  have soundAfter := sound_run (publish (.ofTarget target) writes : Program Location (Except Fault Unit)) world sound
  have soundStaged := sound_run (stage (.ofTarget target) writes : Sequence Unit).run world sound
  rw [stages] at soundStaged
  have soundFailed := sound_run (replace (.ofTarget target) : Sequence Unit).run staged soundStaged
  rw [replaces] at soundFailed
  rw [publish_of_replace_error stages replaces] at settled soundAfter
  have soundDiscarded := sound_run (discard (.ofTarget target) : Program Location Unit) failed soundFailed
  obtain ⟨gone, others⟩ := gone_retract (.ofTarget target) _ soundDiscarded
  have absent := not_found_staged sound soundAfter stages settled
    (others _ (gone_discard (.ofTarget target) failed soundFailed))
  refine ⟨?_, fun location entry found => ⟨gone _ _ found, ?_⟩⟩
  · unfold FileSystem.isPresent
    split
    next answer found => exact absurd found (absent _ _)
    next => rfl
  · obtain ⟨mode, rfl⟩ := gone.directory found
    cases settled with
    | within within => exact within.directory soundAfter.privileged found
    | moved moved => exact absurd found (moved.not_directory soundAfter.privileged mode)

end

/-- A publication that fails tells the step at which it did. If that is one of staging, all is as it was but for what
    was at the temporary path; if it is a later one, nothing is left at the temporary path, and at the target at most a
    directory that was there. -/
theorem failed_publish_leaves (world after : World) (target : Bytes) (writes : List Bytes) (fault : Fault)
    (sound : Sound world.files)
    (fails : (publish (.ofTarget target) writes : Program Location (Except Fault Unit)).run world =
      (.error fault, after)) :
    let message := fault.message (.ofTarget target)
    let staging := Begins message "creating" ∨ Begins message "writing"
    let later := Begins message "unprotecting" ∨ Begins message "removing previous" ∨ Begins message "renaming" ∨
      Begins message "protecting"
    (staging ∨ later) ∧ (staging → Unstaged target world.files after.files) ∧
      (later → Withdrawn target world.files after.files) := by
  intro message staging later
  have begins : ∀ step : Step, Begins message step.words ↔ fault.step = step := fun step => fault.begins_iff
  have isStaging : staging ↔ fault.step ∈ [.creating, .writing] := by
    refine (or_congr (begins .creating) (begins .writing)).trans ?_
    simp
  have isLater : later ↔ fault.step ∈ [.unprotecting, .removing, .renaming, .protecting] := by
    refine (or_congr (begins .unprotecting) (or_congr (begins .removing)
      (or_congr (begins .renaming) (begins .protecting)))).trans ?_
    simp
  rw [isStaging, isLater]
  rcases publish_eq_error fails with ⟨cause, rfl, rfl⟩ | ⟨staged, failed, stages, replaces, rfl⟩
  · refine ⟨.inl (by simp), fun _ => unstaged_of_unlink sound, fun isLater => ?_⟩
    simp at isLater
  · have listed := failsAt_replace _ _ _ _ replaces
    refine ⟨.inr listed, fun isStaging => ?_, fun _ => withdrawn_of_replace_error sound stages replaces⟩
    have apart : ∀ step ∈ ([.unprotecting, .removing, .renaming, .protecting] : List Step),
        step ∉ ([.creating, .writing] : List Step) := by decide
    exact absurd isStaging (apart _ listed)

/-- In the working directory, a directory at the target, and a link to a directory at the temporary path: one
    publication fails behind staging, and the other while it stages. -/
theorem directories_left :
    let files := (FileSystem.empty [0x77] true)
    let occupied := files.put [[0x6F], [0x77]] (.directory Mode.newDirectory)
    let linked := files.put [[0x6F, 0x2E, 0x74, 0x6D, 0x70], [0x77]] (.link [0x2F])
    (∃ after, (publish (.ofTarget [0x6F]) [[0x79]] : Program Location (Except Fault Unit)).run
        ⟨occupied, .unlimited, .unlimited⟩ = (.error ⟨.removing, .system .isDirectory⟩, after) ∧
      Withdrawn [0x6F] occupied after.files) ∧
    ∃ after, (publish (.ofTarget [0x6F]) [[0x79]] : Program Location (Except Fault Unit)).run
        ⟨linked, .unlimited, .unlimited⟩ = (.error ⟨.creating, .system .isDirectory⟩, after) ∧
      Unstaged [0x6F] linked after.files := by
  intro files occupied linked
  have soundFiles : Sound files := FileSystem.sound_empty [0x77]
  have soundOccupied : Sound occupied := FileSystem.sound_makeDirectory soundFiles
    (show files.makeDirectory [0x6F] Mode.newDirectory = .ok occupied from rfl)
  have soundLinked : Sound linked := soundFiles.put rfl (by decide)
  obtain ⟨-, -, withdrawn⟩ := failed_publish_leaves ⟨occupied, .unlimited, .unlimited⟩ _ [0x6F] [[0x79]]
    ⟨.removing, .system .isDirectory⟩ soundOccupied rfl
  obtain ⟨-, unstaged, -⟩ := failed_publish_leaves ⟨linked, .unlimited, .unlimited⟩ _ [0x6F] [[0x79]]
    ⟨.creating, .system .isDirectory⟩ soundLinked rfl
  exact ⟨⟨_, rfl, withdrawn (.inr (.inl (Fault.begins_message ..)))⟩,
    _, rfl, unstaged (.inl (Fault.begins_message ..))⟩

end Publish

end ActorSurface
