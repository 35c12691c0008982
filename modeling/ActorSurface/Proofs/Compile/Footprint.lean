import ActorSurface.Compile
import ActorSurface.Proofs.FileSystem.Concern
import ActorSurface.Proofs.Publish.Steps

/-!
Which entries a compile run changes: the one at the output path, the one at the temporary path beside it, and those
to which a link at one of these leads (`run_footprint`). Creating and writing a file go through a link at the
temporary path, and changing modes goes through one at the output path, so that without links nothing else is
touched.
-/

namespace ActorSurface

namespace FileSystem

open Publish (Intent)

/-- What the calls of a publication leave of a file system. -/
inductive Settled (target : Bytes) (origin files : FileSystem) : Prop
  | within : Within (.ofTarget target) origin files → Settled target origin files
  | moved {cleared : FileSystem} {absolute : Bool} {names : List Name} {left : Nat} {directory : Location} {name : Name}
      {entry : Entry} : Moved target origin cleared absolute names left directory name entry files →
      Settled target origin files

theorem Settled.same {target : Bytes} {origin files : FileSystem} (settled : Settled target origin files)
    {location : Location} (unconcerned : ¬ origin.Concerned (.ofTarget target) location) :
    files.get? location = origin.get? location := by
  cases settled with
  | within within => exact within.same location unconcerned
  | moved moved => exact moved.same location unconcerned

/-- A property that removing at one of the two paths and changing the mode at the target keep. -/
structure Stable (target : Bytes) (kept : FileSystem → Prop) : Prop where
  unlink : ∀ files after path, path = target ∨ path = (Intent.ofTarget target).temporary → kept files →
    files.unlink path = .ok after → kept after
  changeMode : ∀ files after readOnly, kept files → files.changeMode target (Mode.protect readOnly) = .ok after →
    kept after

theorem stable_within (target : Bytes) (origin : FileSystem) : Stable target (Within (.ofTarget target) origin) :=
  ⟨fun _ _ _ named within removed => within.unlink named removed,
    fun _ _ _ within changed => within.changeMode (.inl rfl) changed⟩

theorem stable_settled (target : Bytes) (origin : FileSystem) : Stable target (Settled target origin) := by
  refine ⟨fun files after path named settled removed => ?_, fun files after readOnly settled changed => ?_⟩
  · cases settled with
    | within within => exact .within (within.unlink named removed)
    | moved moved =>
      rcases named with rfl | rfl
      · exact .within (moved.unlink_target removed)
      · exact absurd removed moved.not_unlink_temporary
  · cases settled with
    | within within => exact .within (within.changeMode (.inl rfl) changed)
    | moved moved => exact .moved (moved.changeMode changed)

end FileSystem

namespace Publish

open FileSystem (Answer Location Mode Within Settled Stable)

/-- Whether a call only looks, prints, removes at one of the two paths or changes the mode at the target. -/
def Withdraws (target : Bytes) {α : Type} : Call Location α → Prop
  | .unlink path => path = target ∨ path = (Intent.ofTarget target).temporary
  | .setReadOnly path _ => path = target
  | .create _ => False
  | .write _ _ => False
  | .rename _ _ => False
  | .readText _ => True
  | .sync _ => True
  | .isPresent _ => True
  | .print _ _ => True

/-- Such a call keeps what removing and changing modes keep. -/
theorem keeps_of_stable {target : Bytes} {kept : FileSystem → Prop} (stable : Stable target kept) {α : Type}
    (call : Call Location α) (before : World) (withdraws : Withdraws target call) (holds : kept before.files) :
    kept (call.run before).2.files := by
  cases call with
  | readText path => exact holds
  | sync file => exact holds
  | isPresent path => exact holds
  | create path => cases withdraws
  | write file octets => cases withdraws
  | rename source target => cases withdraws
  | setReadOnly path readOnly =>
    obtain rfl : path = target := withdraws
    rw [Call.run_setReadOnly]
    rcases settle_cases before (before.files.changeMode path (Mode.protect readOnly)) with
      ⟨after, changed, settled⟩ | ⟨fault, -, settled⟩
    · rw [settled]
      exact stable.changeMode _ _ _ holds changed
    · rw [settled]
      exact holds
  | unlink path =>
    rw [Call.run_unlink]
    rcases settle_cases before (before.files.unlink path) with ⟨after, removed, settled⟩ | ⟨fault, -, settled⟩
    · rw [settled]
      exact stable.unlink _ _ _ withdraws holds removed
    · rw [settled]
      exact holds
  | print stream line =>
    rw [Call.files_print]
    exact holds

/-- A run of such calls keeps what removing and changing modes keep. -/
theorem run_of_stable {target : Bytes} {kept : FileSystem → Prop} (stable : Stable target kept) {α : Type}
    {program : Program Location α} (only : program.MakesOnly (Withdraws target)) (world : World)
    (holds : kept world.files) : kept (program.run world).2.files :=
  only.run_keeps (fun world => kept world.files) (keeps_of_stable stable) world holds

section

variable {target : Bytes} {origin : FileSystem} {world : World}

theorem withdraws_discard : (discard (.ofTarget target) : Program Location Unit).MakesOnly (Withdraws target) :=
  makesOnly_discard (.inr rfl)

theorem withdraws_retract : (retract (.ofTarget target) : Program Location Unit).MakesOnly (Withdraws target) :=
  makesOnly_retract trivial rfl (.inl rfl)

/-- Staging writes to the file that it creates. -/
theorem within_stage (writes : List Bytes) (within : Within (.ofTarget target) origin world.files) :
    Within (.ofTarget target) origin
      ((stage (.ofTarget target) writes : Sequence Unit).run.run world).2.files := by
  cases created : world.files.create (Intent.ofTarget target).temporary with
  | error fault =>
    rw [run_stage_of_create_error writes created]
    exact within
  | ok answer =>
    obtain ⟨file, opened⟩ := answer
    obtain ⟨withinOpened, concerned⟩ := within.create (.inr rfl) created
    rw [run_stage_of_create writes created]
    exact withinOpened.writes concerned writes

/-- Replacing moves the staged file to a target that is clear by then. -/
theorem settled_replace (within : Within (.ofTarget target) origin world.files) :
    Settled target origin ((replace (.ofTarget target) : Sequence Unit).run.run world).2.files := by
  have clears : (clear (.ofTarget target) : Sequence Unit).run.MakesOnly (Withdraws target) :=
    makesOnly_clear trivial rfl (.inl rfl)
  have withinCleared := run_of_stable (FileSystem.stable_within target origin) clears world within
  unfold replace
  cases ran : (clear (.ofTarget target) : Sequence Unit).run.run world with
  | mk answer cleared =>
    rw [ran] at withinCleared
    cases answer with
    | error fault =>
      rw [run_bind_of_error _ ran]
      exact .within withinCleared
    | ok value =>
      rw [run_bind_of_ok _ ran]
      cases moves : cleared.files.rename (Intent.ofTarget target).temporary (Intent.ofTarget target).target with
      | error fault =>
        have fails : (attempt .renaming (.rename (Intent.ofTarget target).temporary (Intent.ofTarget target).target) :
            Sequence Unit).run.run cleared = (.error ⟨.renaming, fault⟩, cleared) := by
          rw [run_attempt, Call.run_rename, moves]
          rfl
        rw [run_bind_of_error _ fails]
        exact .within withinCleared
      | ok files =>
        have renames := run_attempt_of_ok .renaming (Call.run_rename cleared _ _) moves
        obtain ⟨_, _, _, _, _, _, moved⟩ := withinCleared.rename (clear_eq_ok ran) moves
        rw [run_bind_of_ok _ renames]
        have protects : Withdraws target (.setReadOnly target true) := rfl
        exact run_of_stable (FileSystem.stable_settled target origin) (makesOnly_attempt protects) _ (.moved moved)

theorem settled_publish (writes : List Bytes) (within : Within (.ofTarget target) origin world.files) :
    Settled target origin
      ((publish (.ofTarget target) writes : Program Location (Except Fault Unit)).run world).2.files := by
  have stable := FileSystem.stable_settled target origin
  have withinStaged := within_stage writes within
  unfold publish
  rw [Program.run_bind]
  cases staged : (stage (.ofTarget target) writes : Sequence Unit).run.run world with
  | mk answer middle =>
    rw [staged] at withinStaged
    cases answer with
    | error fault =>
      rw [Program.run_bind, Program.run_pure]
      exact run_of_stable stable withdraws_discard middle (.within withinStaged)
    | ok value =>
      have settledReplaced := settled_replace withinStaged
      rw [Program.run_bind]
      cases replaced : (replace (.ofTarget target) : Sequence Unit).run.run middle with
      | mk answer final =>
        rw [replaced] at settledReplaced
        cases answer with
        | ok value => exact settledReplaced
        | error fault =>
          rw [Program.run_bind, Program.run_bind, Program.run_pure]
          exact run_of_stable stable withdraws_retract _ (run_of_stable stable withdraws_discard final settledReplaced)

end

end Publish

namespace Compile

open FileSystem (Location Mode Within Settled)

open Publish (Intent Writes)

section

variable {invocation : Invocation} {origin : FileSystem} {world : World}

theorem withdraws_report (target : Bytes) (invocation : Invocation) (diagnostic : Diagnostic) :
    (report invocation diagnostic : Program Location Unit).MakesOnly (Publish.Withdraws target) :=
  .ofCall trivial

theorem withdraws_warnings (target : Bytes) (invocation : Invocation) (findings : List Warning) :
    (findings.forM fun finding => report invocation (.warning finding) :
      Program Location PUnit).MakesOnly (Publish.Withdraws target) := by
  induction findings with
  | nil => exact .pure _
  | cons finding findings ih => exact .bind (withdraws_report _ _ _) fun _ => ih

theorem settled_fail (failure : Failure) (settled : Settled invocation.output origin world.files) :
    Settled invocation.output origin ((fail invocation failure : Program Location ExitStatus).run world).2.files := by
  refine Publish.run_of_stable (FileSystem.stable_settled invocation.output origin) ?_ world settled
  refine .bind Publish.withdraws_discard fun _ => .bind Publish.withdraws_retract fun _ => ?_
  exact .bind (withdraws_report _ _ _) fun _ => .pure _

theorem settled_generate (engine : Engine) (writes : Writes) (request : Engine.Request)
    (within : Within (.ofTarget invocation.output) origin world.files) :
    Settled invocation.output origin
      ((generate engine writes invocation request : Program Location (Except Failure Unit)).run world).2.files := by
  unfold generate
  cases (engine request).result with
  | error failure => exact .within within
  | ok output =>
    have reports := withdraws_warnings invocation.output invocation output.warnings
    dsimp only
    rw [Program.run_bind]
    unfold publishOutput
    rw [Program.run_bind, Program.run_pure]
    have stable := FileSystem.stable_within invocation.output origin
    exact Publish.settled_publish _ (Publish.run_of_stable stable reports world within)

theorem settled_run (engine : Engine) (writes : Writes) (invocation : Invocation) (world : World) :
    Settled invocation.output world.files
      ((run engine writes invocation : Program Location Report).run world).2.files := by
  have within := Within.refl (.ofTarget invocation.output) world.files
  unfold run
  rw [Program.run_bind, Program.run_ofCall, Call.run_readText]
  cases world.files.readText invocation.input with
  | error fault =>
    rw [Program.run_bind, Program.run_pure]
    exact settled_fail _ (.within within)
  | ok text =>
    have settled := settled_generate engine writes
      (.ofPaths text invocation.input invocation.output invocation.engineOptions) within
    simp only [Program.run_bind, Program.run_pure]
    cases generated : (generate engine writes invocation
        (.ofPaths text invocation.input invocation.output invocation.engineOptions) :
        Program Location (Except Failure Unit)).run world with
    | mk answer middle =>
      rw [generated] at settled
      cases answer with
      | ok value => exact settled
      | error failure => exact settled_fail failure settled

end

/-- An entry that a run leaves otherwise than it found it is the one at the output path or the one at the temporary
    path, links not followed, or a link stands at one of the two and leads to it. That holds of every process and of
    every file system, whatever becomes of the run. -/
theorem run_footprint (engine : Engine) (writes : Writes) (invocation : Invocation) (world : World)
    (location : Location) :
    let intent := Intent.ofTarget invocation.output
    let after := ((run engine writes invocation : Program Location Report).run world).2
    after.files.get? location = world.files.get? location ∨
      world.files.At intent.target location ∨ world.files.At intent.temporary location ∨
      world.files.Behind intent.target location ∨ world.files.Behind intent.temporary location := by
  intro intent after
  by_cases concerned : world.files.Concerned intent location
  · right
    rcases concerned with reaches | reaches
    · rcases reaches.cases with here | behind
      · exact .inl here
      · exact .inr (.inr (.inl behind))
    · rcases reaches.cases with here | behind
      · exact .inr (.inl here)
      · exact .inr (.inr (.inr behind))
  · exact .inl ((settled_run engine writes invocation world).same concerned)

/-- That a run changes no other entry than the two is not so: the text is written through a link at the temporary
    path. -/
theorem not_only_two_entries :
    ¬ ∀ (engine : Engine) (writes : Writes) (invocation : Invocation) (world : World) (location : Location),
      ¬ world.files.At (Intent.ofTarget invocation.output).target location →
      ¬ world.files.At (Intent.ofTarget invocation.output).temporary location →
      ((run engine writes invocation : Program Location Report).run world).2.files.get? location =
        world.files.get? location := by
  intro claimed
  -- The input is `i`, the output `o`, and `o.tmp` is a link to `x`.
  let files := (((FileSystem.empty [0x77] true).put [[0x69], [0x77]] (.file Mode.newFile [0x61])).put
    [[0x78], [0x77]] (.file Mode.newFile [0x6B])).put [[0x6F, 0x2E, 0x74, 0x6D, 0x70], [0x77]] (.link [0x78])
  have target : files.resolve .entry [0x6F] = .ok (.named [[0x77]] [0x6F] false) := by rfl
  have staged : files.resolve .entry [0x6F, 0x2E, 0x74, 0x6D, 0x70] =
      .ok (.named [[0x77]] [0x6F, 0x2E, 0x74, 0x6D, 0x70] false) := by rfl
  have same := claimed (fun _ => .produced ⟨"t", []⟩) Publish.inOneWrite ⟨[0x69], [0x6F], {}⟩
    ⟨files, .unlimited, .unlimited⟩ [[0x78], [0x77]] ?_ ?_
  · revert same
    decide +kernel
  · rintro ⟨spot, resolved, there⟩
    cases target.symm.trans resolved
    cases there
  · rintro ⟨spot, resolved, there⟩
    cases staged.symm.trans resolved
    cases there

end Compile

end ActorSurface
